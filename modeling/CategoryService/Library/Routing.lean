import Mathlib.Data.Finset.Max
import Mathlib.Data.Prod.Lex
import Mathlib.Tactic.Common

/-! Requests matched to annotated methods: path templates, media types, and what every
router has to respect when several methods match. The methods are an arbitrary type. -/
namespace Routing

inductive Method where
  | get | post | put
  deriving DecidableEq

structure MediaType where
  type : String
  subtype : String
  deriving DecidableEq

inductive MediaRange where
  | all
  | family (type : String)
  | exact (media : MediaType)
  deriving DecidableEq

def MediaRange.covers : MediaRange → MediaType → Bool
  | .all, _ => true
  | .family type, media => type = media.type
  | .exact media', media => media' = media

def MediaRange.specificity : MediaRange → Nat
  | .all => 0
  | .family _ => 1
  | .exact _ => 2

/-- Ranges with their qualities, in thousandths. -/
abbrev Accept := List (MediaRange × Nat)

/-- The best quality a range gives the media type; 0 is not acceptable. -/
def Accept.quality (accept : Accept) (media : MediaType) : Nat :=
  accept.foldr (fun e q => if e.1.covers media then max e.2 q else q) 0

inductive Segment where
  | literal (text : List Char)
  | param
  deriving DecidableEq

abbrev Template := List Segment
abbrev Param := { s : List Char // s ≠ [] }

/-- The parameters of a path that has the form of the template, with or without a slash
at its end. -/
def Template.bind : Template → List (List Char) → Option (List Param)
  | [], [] => some []
  | [], [s] => if s = [] then some [] else none
  | .literal text :: template, s :: path => if text = s then Template.bind template path else none
  | .param :: template, s :: path =>
    if h : s ≠ [] then (Template.bind template path).map (⟨s, h⟩ :: ·) else none
  | _, _ => none

def Template.fill : Template → List Param → List (List Char)
  | [], _ => []
  | .literal text :: template, params => text :: Template.fill template params
  | .param :: template, s :: params => s.val :: Template.fill template params
  | .param :: _, [] => []

def Template.arity : Template → Nat
  | [] => 0
  | .literal _ :: template => Template.arity template
  | .param :: template => Template.arity template + 1

/-- The literal characters, by which templates are ranked. -/
def Template.literals : Template → Nat
  | [] => 0
  | .literal text :: template => text.length + Template.literals template
  | .param :: template => Template.literals template

/-- A filled template is a path of that template, with the same parameters. -/
theorem bind_fill (template : Template) (params : List Param)
    (h : params.length = template.arity) :
    template.bind (template.fill params) = some params := by
  induction template generalizing params with
  | nil =>
    have hp : params = [] := List.length_eq_zero_iff.mp h
    rw [hp]
    rfl
  | cons segment template ih =>
    cases segment with
    | literal text => simpa [Template.fill, Template.bind] using ih params h
    | param =>
      cases params with
      | nil => simp [Template.arity] at h
      | cons s params =>
        have hp : params.length = Template.arity template := by simpa [Template.arity] using h
        simp [Template.fill, Template.bind, s.property, ih params hp]

section Paths
variable {c : List Char} {path : List (List Char)} {template : Template} {params : List Param}

theorem bind_nil :
    Template.bind [] path = some params ↔ params = [] ∧ (path = [] ∨ path = [[]]) := by
  match path with
  | [] => simp [Template.bind, eq_comm]
  | [s] => by_cases hs : s = [] <;> simp [Template.bind, hs, eq_comm]
  | s :: s' :: path => simp [Template.bind]

theorem bind_literal :
    Template.bind (.literal c :: template) path = some params ↔
      ∃ rest, path = c :: rest ∧ Template.bind template rest = some params := by
  cases path with
  | nil => simp [Template.bind]
  | cons s path =>
    by_cases hs : c = s
    · subst hs
      simp [Template.bind]
    · simp [Template.bind, hs, Ne.symm hs]

theorem bind_param :
    Template.bind (.param :: template) path = some params ↔
      ∃ (s : Param) (rest : List (List Char)) (params' : List Param), path = s.val :: rest ∧
        Template.bind template rest = some params' ∧ params = s :: params' := by
  cases path with
  | nil => simp [Template.bind]
  | cons s path =>
    by_cases hs : s = []
    · subst hs
      simp only [Template.bind, ne_eq, not_true, dite_false, reduceCtorEq, List.cons.injEq,
        false_iff]
      rintro ⟨s, _, _, ⟨he, -⟩, -⟩
      exact s.property he.symm
    · simp only [Template.bind, ne_eq, hs, not_false_eq_true, dite_true, Option.map_eq_some_iff]
      constructor
      · rintro ⟨params', hp, rfl⟩
        exact ⟨⟨s, hs⟩, path, params', rfl, hp, rfl⟩
      · rintro ⟨s', rest, params', hpath, hp, rfl⟩
        obtain ⟨rfl, rfl⟩ := List.cons.inj hpath
        exact ⟨params', hp, rfl⟩

end Paths

structure Route where
  method : Method
  template : Template
  consumes : List MediaRange
  produces : List MediaType

/-- What a router looks at. A request without an entity has no content type. -/
structure Target where
  method : Method
  path : List (List Char)
  accept : Accept
  contentType : Option MediaType

namespace Route

/-- How closely the method's input types fit the request, if at all. -/
def input (r : Route) (q : Target) : Option Nat :=
  match q.contentType with
  | none => some 0
  | some media => ((r.consumes.filter (·.covers media)).map MediaRange.specificity).max?

/-- The best quality among the method's output types. -/
def output (r : Route) (q : Target) : Nat :=
  (r.produces.map q.accept.quality).foldr max 0

theorem input_all {r : Route} (h : r.consumes = [.all]) (q : Target) : (r.input q).isSome := by
  unfold input
  cases q.contentType with
  | none => rfl
  | some media => simp [h, MediaRange.covers]

theorem le_output {r : Route} {media : MediaType} (h : media ∈ r.produces) (q : Target) :
    q.accept.quality media ≤ r.output q := by
  obtain ⟨_, _, _, produces⟩ := r
  simp only [output] at h ⊢
  induction produces with
  | nil => cases h
  | cons media' produces ih =>
    obtain rfl | h := List.mem_cons.mp h
    · exact le_max_left _ _
    · exact (ih h).trans (le_max_right _ _)

/-- More output types fit at least as well. -/
theorem output_mono {r r' : Route} (h : r.produces ⊆ r'.produces) (q : Target) :
    r.output q ≤ r'.output q := by
  obtain ⟨_, _, _, produces⟩ := r
  simp only [output] at h ⊢
  induction produces with
  | nil => exact Nat.zero_le _
  | cons media produces ih =>
    obtain ⟨hmedia, hrest⟩ := List.cons_subset.mp h
    exact max_le (le_output hmedia q) (ih hrest)

structure Matches (r : Route) (q : Target) : Prop where
  method : r.method = q.method
  path : (r.template.bind q.path).isSome
  input : (r.input q).isSome
  output : 0 < r.output q

instance (r : Route) (q : Target) : Decidable (r.Matches q) :=
  decidable_of_iff (r.method = q.method ∧ (r.template.bind q.path).isSome ∧
      (r.input q).isSome ∧ 0 < r.output q)
    ⟨fun h => ⟨h.1, h.2.1, h.2.2.1, h.2.2.2⟩, fun h => ⟨h.method, h.path, h.input, h.output⟩⟩

/-- `r` comes before `r'`: by its path, or else by neither input nor output worse and
by one of them better. -/
def Beats (r r' : Route) (q : Target) : Prop :=
  r'.template.literals < r.template.literals ∨
    r'.template.literals = r.template.literals ∧
      (r'.input q).getD 0 ≤ (r.input q).getD 0 ∧ r'.output q ≤ r.output q ∧
      ((r'.input q).getD 0 < (r.input q).getD 0 ∨ r'.output q < r.output q)

instance (r r' : Route) (q : Target) : Decidable (r.Beats r' q) :=
  inferInstanceAs (Decidable (_ ∨ _))

/-- No template for the path has more literal characters. -/
def Foremost {η : Type} (route : η → Route) (h : η) (q : Target) : Prop :=
  ∀ h', ((route h').template.bind q.path).isSome →
    (route h').template.literals ≤ (route h).template.literals

end Route

/-- A choice of one method for each request, as far as the order of preference goes.
Where the preferred template has no method for the request, whether another template
gets its turn is left open. -/
structure Router {η : Type} (route : η → Route) where
  pick : Target → Option η
  status : Target → Nat
  matches_pick : ∀ {q h}, pick q = some h → (route h).Matches q
  unbeaten : ∀ {q h}, pick q = some h → ∀ h', (route h').Matches q → ¬ (route h').Beats (route h) q
  complete : ∀ {q h}, (route h).Matches q → Route.Foremost route h q → pick q ≠ none
  refusal : ∀ q, 400 ≤ status q ∧ status q < 500

section Router
variable {η : Type} {route : η → Route} (R : Router route)

/-- The rule by which a request has one method only, whatever the router. -/
theorem Router.pick_eq {q : Target} {h : η} (hm : (route h).Matches q)
    (hf : Route.Foremost route h q)
    (hbest : ∀ h', (route h').Matches q → h' = h ∨ (route h).Beats (route h') q) :
    R.pick q = some h := by
  cases hp : R.pick q with
  | none => exact absurd hp (R.complete hm hf)
  | some h' =>
    obtain rfl | hb := hbest h' (R.matches_pick hp)
    · rfl
    · exact absurd hb (R.unbeaten hp h hm)

/-- Template first, then input, then output. -/
def Route.key (r : Route) (q : Target) : Nat ×ₗ Nat ×ₗ Nat :=
  toLex (r.template.literals, toLex ((r.input q).getD 0, r.output q))

theorem Route.key_lt_of_beats {r r' : Route} {q : Target} (h : r.Beats r' q) :
    r'.key q < r.key q := by
  simp only [Route.key, Prod.Lex.toLex_lt_toLex]
  obtain h | ⟨hl, hi, ho, hlt⟩ := h
  · exact .inl h
  · refine .inr ⟨hl, ?_⟩
    obtain hi' | hi' := lt_or_eq_of_le hi
    · exact .inl hi'
    · exact .inr ⟨hi', hlt.resolve_left (by omega)⟩

/-- The router that takes the first unbeaten method of a list. -/
def Router.ofList [DecidableEq η] (hs : List η) (hall : ∀ h, h ∈ hs) : Router route where
  pick q := hs.find? fun h =>
    (route h).Matches q ∧ ∀ h' ∈ hs, (route h').Matches q → ¬ (route h').Beats (route h) q
  status _ := 404
  matches_pick := by
    intro q h hp
    have hfound := List.find?_some hp
    exact (of_decide_eq_true hfound).1
  unbeaten := by
    intro q h hp h' hm
    have hfound := List.find?_some hp
    exact (of_decide_eq_true hfound).2 h' (hall h') hm
  complete := by
    intro q h hm _ hp
    have hne : (hs.toFinset.filter fun h => (route h).Matches q).Nonempty :=
      ⟨h, by simp [hall h, hm]⟩
    obtain ⟨g, hg, hmax⟩ := Finset.exists_max_image _ (fun h => (route h).key q) hne
    have hgm : (route g).Matches q := (Finset.mem_filter.mp hg).2
    have hbest : ∀ h' ∈ hs, (route h').Matches q → ¬ (route h').Beats (route g) q := by
      intro h' hh' hm' hb
      have hle := hmax h' (Finset.mem_filter.mpr ⟨List.mem_toFinset.mpr hh', hm'⟩)
      exact absurd (Route.key_lt_of_beats hb) (not_lt.mpr hle)
    have hnot := List.find?_eq_none.mp hp g (hall g)
    exact hnot (decide_eq_true ⟨hgm, hbest⟩)
  refusal _ := by decide

end Router
end Routing
