import CategoryService.CategoryResource
import CategoryService.Library.EventMachine
import CategoryService.Library.Routing
import CategoryService.Library.Numeral

/-! From a request to its response: authentication, the resolution of handler
parameters in declared order, `@UnitOfWork`, and the service as a machine. -/
namespace CategoryService
open Interaction KeyedStore Numeral

structure CategoryServiceConfiguration where
  adminPassword : JString
  notEmpty : adminPassword ≠ []

/-- The configuration, and what the libraries under the service leave open: which
characters count as digits, whether `@Valid` lets a JSON null through, which other
media types the JSON reader takes, and the texts of exceptions. -/
structure Platform where
  configuration : CategoryServiceConfiguration
  digits : DigitReader
  nullEntityValid : Bool
  readsJson : Routing.MediaType → Bool
  message : Throwable → Option JString

structure BasicCredentials where
  username : JString
  password : JString

/-- `auth/SimpleAuthenticator.java`. -/
def authenticate (adminPassword : JString) (credentials : BasicCredentials) :
    Option Authentication :=
  if adminPassword = credentials.password then some ⟨none⟩ else none

/-- What `/{id}` matches: at least one character. -/
abbrev PathSegment := { s : JString // s ≠ [] }

inductive JsonBody where
  | unreadable
  | parsed (dto : Option CategoryDTO)

inductive Call where
  | listCategories
  | listCategoriesJson
  | viewCategory (id : PathSegment)
  | viewCategoryJson (id : PathSegment)
  | createCategory (category : JsonBody)
  | createCategoryJson (category : JsonBody)
  | newCategory
  | save (id name : Option JString)
  | saveJson (id : PathSegment) (categoryDto : JsonBody)

structure Request where
  credentials : Option BasicCredentials
  call : Call

/-- `Integer.valueOf(String)`. -/
def Integer.valueOf (digits : DigitReader) (s : JString) : Option Integer :=
  (readInt digits s).bind fun i =>
    if -2 ^ 31 ≤ i ∧ i < 2 ^ 31 then some (Int32.ofInt i) else none

/-- `Integer.toString`. -/
def Integer.toString (i : Integer) : JString := printInt i.toInt

/-- An integer parameter: the empty text is null, other text that is no integer is refused. -/
def readInteger (digits : DigitReader) (s : JString) : Option (Option Integer) :=
  match Integer.valueOf digits s with
  | some i => some (some i)
  | none => if s = [] then some none else none

def unauthorized : Response := .ofStatus 401 (.challenge "Category Service")

/-- A parameter that is refused ends the request with its own response. -/
def refuse {α : Type} (response : Response) : Except Throwable α :=
  .error (.webApplication response)

section Parameters
variable (p : Platform)

/-- The `@Auth` parameter. -/
def auth : Option BasicCredentials → Except Throwable Authentication
  | none => refuse unauthorized
  | some credentials =>
    match authenticate p.configuration.adminPassword credentials with
    | some user => .ok user
    | none => refuse unauthorized

def pathParam (s : PathSegment) : Except Throwable (Option Integer) :=
  match readInteger p.digits s.val with
  | some id => .ok id
  | none => refuse (.ofStatus 404 .empty)

def formParam : Option JString → Except Throwable (Option Integer)
  | none => .ok none
  | some s =>
    match readInteger p.digits s with
    | some id => .ok id
    | none => refuse (.ofStatus 400 .empty)

def jsonEntity : JsonBody → Except Throwable (Option CategoryDTO)
  | .unreadable => refuse (.ofStatus 400 .empty)
  | .parsed dto => .ok dto

/-- `@NotEmpty String name`. -/
def CategoryDTO.Valid (dto : CategoryDTO) : Prop := dto.name ≠ none ∧ dto.name ≠ some []

instance (dto : CategoryDTO) : Decidable dto.Valid := inferInstanceAs (Decidable (_ ∧ _))

/-- A JSON parameter under `@Valid`. -/
def validEntity : JsonBody → Except Throwable (Option CategoryDTO)
  | .unreadable => refuse (.ofStatus 400 .empty)
  | .parsed none => if p.nullEntityValid then .ok none else refuse (.ofStatus 422 .empty)
  | .parsed (some dto) => if dto.Valid then .ok (some dto) else refuse (.ofStatus 422 .empty)

/-- Every handler has its `@Auth` parameter first. -/
def dispatch (env : Env) (r : Request) : Tx Response := do
  match r.call with
  | .listCategories =>
    CategoryResource.listCategories env (← ofExcept (auth p r.credentials))
  | .listCategoriesJson =>
    CategoryResource.listCategoriesJson env (← ofExcept (auth p r.credentials))
  | .viewCategory id =>
    CategoryResource.viewCategory env (← ofExcept (auth p r.credentials))
      (← ofExcept (pathParam p id))
  | .viewCategoryJson id =>
    CategoryResource.viewCategoryJson env (← ofExcept (auth p r.credentials))
      (← ofExcept (pathParam p id))
  | .createCategory category =>
    CategoryResource.createCategory env (← ofExcept (auth p r.credentials))
      (← ofExcept (validEntity p category))
  | .createCategoryJson category =>
    CategoryResource.createCategoryJson p.message env (← ofExcept (auth p r.credentials))
      (← ofExcept (validEntity p category))
  | .newCategory => CategoryResource.newCategory env (← ofExcept (auth p r.credentials))
  | .save id name =>
    CategoryResource.save env (← ofExcept (auth p r.credentials))
      (← ofExcept (formParam p id)) name
  | .saveJson id categoryDto =>
    CategoryResource.saveJson env (← ofExcept (auth p r.credentials))
      (← ofExcept (pathParam p id)) (← ofExcept (jsonEntity categoryDto))

end Parameters

def rolledBack (ex : Throwable) : DbProg Response := do
  let _ ← Prog.perform .rollback
  return ex.toResponse

/-- The end of a unit of work: roll back when the handler threw or the commit
fails, commit when it returned, whatever status it returned. -/
def finish (env : Env) : Except Throwable Response × Session → DbProg Response
  | (.error ex, _) => rolledBack ex
  | (.ok response, session) =>
    if env.fails .flush then rolledBack (.failure .flush)
    else do
      let outcome : Except Throwable Unit ← Prog.perform (DbOp.commit session.updates)
      match outcome with
      | .ok () => return response
      | .error ex => return ex.toResponse

def unitOfWork (env : Env) (handler : Tx Response) : DbProg Response :=
  handler.eval Session.new >>= finish env

def program (p : Platform) (env : Env) (r : Request) : DbProg Response :=
  unitOfWork env (dispatch p env r)

structure Event where
  request : Request
  env : Env

/-- A program of one transaction run on its own, with the rows it leaves committed. -/
def runFrom (env : Env) (s : Database Unit) (m : DbProg Response) : Response × Table :=
  ((m.run (act env.offer ()) s).1, (m.run (act env.offer ()) s).2.rows)

def runAlone (env : Env) (t : Table) (m : DbProg Response) : Response × Table :=
  runFrom env (Store.idle t) m

/-- One request served with no other request in between. -/
def serve (p : Platform) (t : Table) (e : Event) : Response × Table :=
  runAlone e.env t (program p e.env e.request)

/-- The tables a run of requests can lead to from the empty one. -/
def Reachable (p : Platform) : Table → Prop := EventMachine.Reachable (serve p) ∅

/-- The service as config.yml sets it up. -/
def configured : Platform where
  configuration := ⟨"password".toList, by decide⟩
  digits := asciiReader
  nullEntityValid := false
  readsJson media := media.subtype = "json" || "+json".toList.isSuffixOf media.subtype.toList
  message _ := none

def asAdmin (call : Call) : Request := ⟨some ⟨"admin".toList, "password".toList⟩, call⟩

end CategoryService
