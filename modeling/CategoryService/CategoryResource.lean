import CategoryService.CategoryDAO

/-! `resources/CategoryResource.java`: the nine handlers, on parameters already
resolved. A handler returns its response or throws; what becomes of the
transaction is decided outside. -/
namespace CategoryService

structure Authentication where
  password : Option JString

/-- `CategoryDTO.toCategory`. -/
def CategoryDTO.toCategory (env : Env) (dto : CategoryDTO) : Tx Category := do
  step env .toCategory
  ofExcept ((Category.new.setId dto.id).setName dto.name)

def newCategoryDTO (env : Env) (category : Category) : Tx CategoryDTO := do
  step env .categoryDTO
  return .ofCategory category

def newCategoryList (env : Env) (categories : List Category) : Tx CategoryList := do
  step env .categoryDTO
  return .ofCategories categories

namespace CategoryResource
def listCategories (env : Env) (_user : Authentication) : Tx Response := do
  let categories ← CategoryDAO.findAll env
  step env .response
  return .ok (.listView ⟨categories⟩)

def listCategoriesJson (env : Env) (_user : Authentication) : Tx Response := do
  let list ← newCategoryList env (← CategoryDAO.findAll env)
  step env .links
  step env .response
  return (Response.ok (.list list)).withLinks
    [.each "categories" .CATEGORY "self" "id", .link .ADD_CATEGORY "create",
     .selfLink .CATEGORIES []]

def viewCategory (env : Env) (_user : Authentication) (id : Option Integer) : Tx Response := do
  match ← CategoryDAO.findById env (← deref id) with
  | some cmd =>
    let dto ← newCategoryDTO env cmd
    step env .response
    return .ok (.view ⟨dto⟩)
  | none => throw notFoundException

def viewCategoryJson (env : Env) (_user : Authentication) (id : Option Integer) : Tx Response := do
  match ← CategoryDAO.findById env (← deref id) with
  | some cmd =>
    let dto ← newCategoryDTO env cmd
    step env .links
    step env .response
    return (Response.ok (.dto dto)).withLinks [.selfLink .CATEGORY [cmd.id]]
  | none =>
    step env .response
    return .ofStatus 404 .empty

def createCategory (env : Env) (_user : Authentication) (category : Option CategoryDTO) :
    Tx Response := do
  let saved ← CategoryDAO.save env (← (← deref category).toCategory env)
  let dto ← newCategoryDTO env saved
  step env .response
  return .ok (.view ⟨dto⟩)

/-- The catch-all turns every exception of the body into a returned response. -/
def createCategoryJson (message : Throwable → Option JString) (env : Env)
    (_user : Authentication) (category : Option CategoryDTO) : Tx Response :=
  tryCatch
    (do
      let dto ← newCategoryDTO env
        (← CategoryDAO.save env (← (← deref category).toCategory env))
      step env .links
      step env .response
      return .created .CATEGORY [dto.id])
    fun ex => do
      step env .errorResponse
      return .ofStatus 500 (.message (message ex))

def newCategory (env : Env) (_user : Authentication) : Tx Response := do
  step env .response
  return .ok (.view ⟨.new⟩)

def save (env : Env) (_user : Authentication) (id : Option Integer) (name : Option JString) :
    Tx Response := do
  let cmd ← match id with
    | some id => CategoryDAO.findById env id
    | none => pure (some Category.new)
  match cmd with
  | some c =>
    let _ ← CategoryDAO.save env (← ofExcept (c.setName name))
    step env .response
    return .seeOther "/categories"
  | none => throw notFoundException

/-- The path id is resolved and then not used. -/
def saveJson (env : Env) (_user : Authentication) (_id : Option Integer)
    (categoryDto : Option CategoryDTO) : Tx Response := do
  let _ ← CategoryDAO.save env (← (← deref categoryDto).toCategory env)
  step env .response
  return .ok .empty

end CategoryResource
end CategoryService
