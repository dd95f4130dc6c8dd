import Mathlib.Tactic.Common

/-! The service's data: entity, transfer objects, responses and exceptions, with
the steps of a request that can throw on their own account. -/
namespace CategoryService

abbrev Integer := Int32
abbrev JString := List Char

/-- `String.length`, in UTF-16 units. -/
def javaLength : JString → Nat
  | [] => 0
  | c :: s => (if c.val < 0x10000 then 1 else 2) + javaLength s

/-- The entity; every field of a Java object may be null. -/
structure Category where
  id : Option Integer
  name : Option JString
  deriving DecidableEq

def Category.new : Category := ⟨none, none⟩

structure CategoryDTO where
  id : Option Integer
  name : Option JString
  deriving DecidableEq

def CategoryDTO.new : CategoryDTO := ⟨none, none⟩

def CategoryDTO.ofCategory (category : Category) : CategoryDTO := ⟨category.id, category.name⟩

structure CategoryList where
  categories : List CategoryDTO
  deriving DecidableEq

def CategoryList.ofCategories (categories : List Category) : CategoryList :=
  ⟨categories.map CategoryDTO.ofCategory⟩

structure CategoryListView where
  commands : List Category
  deriving DecidableEq

structure CategoryView where
  category : CategoryDTO
  deriving DecidableEq

inductive CategoryLinks where
  | CATEGORIES | CATEGORY | ADD_CATEGORY
  deriving DecidableEq

/-- The links a `HateoasResponse` is given; resolving them is the library's work. -/
inductive Link where
  | selfLink (linkable : CategoryLinks) (params : List (Option Integer))
  | link (linkable : CategoryLinks) (rel : String)
  | each (path : String) (linkable : CategoryLinks) (rel field : String)
  deriving DecidableEq

inductive Location where
  | uri (path : String)
  | linkable (linkable : CategoryLinks) (params : List (Option Integer))
  deriving DecidableEq

inductive Entity where
  | empty
  | message (text : Option JString)
  | challenge (realm : String)
  | listView (view : CategoryListView)
  | view (view : CategoryView)
  | list (list : CategoryList)
  | dto (category : CategoryDTO)
  deriving DecidableEq

structure Response where
  status : Nat
  entity : Entity
  links : List Link
  location : Option Location
  deriving DecidableEq

namespace Response

def ofStatus (status : Nat) (entity : Entity) : Response := ⟨status, entity, [], none⟩
def ok (entity : Entity) : Response := ofStatus 200 entity
def seeOther (location : String) : Response := ⟨303, .empty, [], some (.uri location)⟩
def created (linkable : CategoryLinks) (params : List (Option Integer)) : Response :=
  ⟨201, .empty, [], some (.linkable linkable params)⟩
def withLinks (r : Response) (links : List Link) : Response := { r with links := links }
def serverError : Response := ofStatus 500 .empty

/-- Neither a client nor a server error. -/
def Success (r : Response) : Prop := r.status < 400
def ClientError (r : Response) : Prop := 400 ≤ r.status ∧ r.status < 500
def ServerError (r : Response) : Prop := 500 ≤ r.status

instance (r : Response) : Decidable r.Success := inferInstanceAs (Decidable (_ < _))
instance (r : Response) : Decidable r.ClientError := inferInstanceAs (Decidable (_ ∧ _))
instance (r : Response) : Decidable r.ServerError := inferInstanceAs (Decidable (_ ≤ _))

end Response

/-- The places inside a request where a library call can throw by itself. -/
inductive Step where
  | toCategory | lookup | persist | categoryDTO | links | response | errorResponse | flush
  deriving DecidableEq

inductive Throwable where
  | webApplication (response : Response)
  | nullPointer
  | constraintViolation
  | dataException
  | staleState
  | identityExhausted
  | nonUniqueResult
  | failure (step : Step)
  deriving DecidableEq

/-- `com.sun.jersey.api.NotFoundException`. -/
def notFoundException : Throwable := .webApplication (.ofStatus 404 .empty)

/-- What the container answers to an exception that leaves a resource method. -/
def Throwable.toResponse : Throwable → Response
  | .webApplication response => response
  | _ => .serverError

def Category.setId (c : Category) (id : Option Integer) : Category := { c with id := id }

/-- The generated setter of a `@NonNull` field. -/
def Category.setName (c : Category) (name : Option JString) : Except Throwable Category :=
  match name with
  | none => .error .nullPointer
  | some name => .ok { c with name := some name }

/-- What a request meets outside the code: the id the identity column hands out
if it inserts, and the steps that throw on their own account. -/
structure Env where
  offer : Integer
  fails : Step → Bool

def Env.calm (offer : Integer) : Env := ⟨offer, fun _ => false⟩

end CategoryService
