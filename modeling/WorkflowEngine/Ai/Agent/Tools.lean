import WorkflowEngine.Foundations.Json
import WorkflowEngine.Foundations.Objects
import WorkflowEngine.Services.Access

/-!
# Agent tools

A tool is registered under a name.  An agent may use the tools of its allowlist that the
role of the run's owner permits.
-/

open Text Objects

namespace WorkflowEngine

/-! ## Permissions -/

def Role.text : Role → Text
  | .admin => ofString "admin"
  | .operator => ofString "operator"
  | .viewer => ofString "viewer"

/-- What every object inherits. -/
def prototypeNames : List Text := objectPrototype.map ofString

/-- `ROLE_PERMISSIONS` -/
def rolePermissionsTable : Entries Text (List Permission) :=
  [.admin, .operator, .viewer].map fun role => (role.text, rolePermissions role)

/-- `hasPermission` for any string.  A property of `Object.prototype` has no `has`. -/
def hasPermissionText (role : Text) (permission : Permission) : Except Text Bool :=
  match find prototypeNames rolePermissionsTable role with
  | .own permissions => .ok (permission ∈ permissions)
  | .inherited _ => .error (ofString "ROLE_PERMISSIONS[role]?.has is not a function")
  | .missing => .ok false

/-! ## Tools -/

/-- A complaint of a schema. -/
structure Issue where
  path : List Text
  message : Text

structure Tool where
  description : Text
  /-- the schema of the arguments as printed JSON -/
  jsonSchema : Text
  /-- the arguments as parsed, or the complaints -/
  schema : Json → Except (List Issue) Json
  permission : Option Permission
  timeoutMs : ℕ

abbrev Registry := Entries Text Tool

/-- The tools of a run, by name, and the names it may not use. -/
structure Selection where
  allowed : Entries Text (Found Text Tool)
  denied : List Text

def Selection.empty : Selection where
  allowed := []
  denied := []

def protoName : Text := ofString "__proto__"

/-- `allowed[name] = tool`; the name `__proto__` sets the prototype instead. -/
def Selection.allow (selection : Selection) (name : Text) (tool : Found Text Tool) : Selection :=
  if name = protoName then selection
  else { selection with allowed := assign selection.allowed name tool }

def Selection.deny (selection : Selection) (name : Text) : Selection :=
  { selection with denied := selection.denied ++ [name] }

/-- The body of the loop over the names.  What a prototype holds has no `permission`. -/
def selectTool (registry : Registry) (role : Text) (selection : Selection) (name : Text) :
    Except Text Selection :=
  match find prototypeNames registry name with
  | .own tool =>
      match tool.permission with
      | none => .ok (selection.allow name (.own tool))
      | some permission => do
          let permitted ← hasPermissionText role permission
          if permitted then .ok (selection.allow name (.own tool))
          else .ok (selection.deny name)
  | .inherited inherited => .ok (selection.allow name (.inherited inherited))
  | .missing => .error (ofString "Cannot read properties of undefined (reading 'permission')")

/-- The names of the allowlist; all tools without one. -/
def toolNames (registry : Registry) (allowlist : Option (List Text)) : List Text :=
  allowlist.getD registry.keys

/-- The names that the registry does not know, as the code asks for them. -/
def unknownTools (registry : Registry) (names : List Text) : List Text :=
  names.filter fun name =>
    match find prototypeNames registry name with
    | .missing => true
    | _ => false

def selectTools (registry : Registry) (allowlist : Option (List Text)) (role : Text) :
    Except Text Selection :=
  let names := toolNames registry allowlist
  let unknown := unknownTools registry names
  if unknown ≠ [] then
    .error (ofString "Unknown agent tool(s): " ++ (ofString ", ").intercalate unknown)
  else names.foldlM (selectTool registry role) .empty

end WorkflowEngine
