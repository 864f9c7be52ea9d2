import ServiceDispatch.Environment

/-!
# Settings

What is looked for and what is written: the namespace of the services, the context type, the
names in the generated function and the attribute that marks a service. A value comes from
an explicit override, else from the environment, else from the defaults.
-/

namespace ServiceDispatch

/-- What the scan looks for and what the generated function is called. -/
structure Settings where
  /-- Only types under this module are dispatched to. -/
  rootNamespace : ItemPath := ⟨"crate::hos::services"⟩
  /-- The type every constructor takes first. -/
  contextType : ItemPath := ⟨"crate::hos::ServiceCtx"⟩
  /-- The trait of the objects that the generated function returns. -/
  serviceTrait : ItemPath := ⟨"crate::hos::IpcService"⟩
  /-- The type that receives the generated function. -/
  enclosingType : ItemPath := ⟨"crate::hos::services::sm::UserInterface"⟩
  functionName : String := "get_service_instance"
  /-- An attribute whose name starts so marks a service. -/
  markerPrefix : String := "service"
  /-- Crates that a payload type may name without an import. -/
  externCrates : List String := []
deriving DecidableEq, Repr, Inhabited

namespace Settings

/-- The environment variables that are read. -/
def variableNames : List String :=
  ["IPCGEN_ROOT_NAMESPACE", "IPCGEN_CONTEXT_TYPE", "IPCGEN_SERVICE_TRAIT",
    "IPCGEN_ENCLOSING_TYPE", "IPCGEN_FUNCTION_NAME", "IPCGEN_MARKER_PREFIX",
    "IPCGEN_EXTERN_CRATES"]

/-- The settings of an environment, with the defaults for what it does not bind. -/
def ofEnvironment (env : Environment) : Settings :=
  let default : Settings := {}
  { rootNamespace := (env.path? "IPCGEN_ROOT_NAMESPACE").getD default.rootNamespace
    contextType := (env.path? "IPCGEN_CONTEXT_TYPE").getD default.contextType
    serviceTrait := (env.path? "IPCGEN_SERVICE_TRAIT").getD default.serviceTrait
    enclosingType := (env.path? "IPCGEN_ENCLOSING_TYPE").getD default.enclosingType
    functionName := env.getD "IPCGEN_FUNCTION_NAME" default.functionName
    markerPrefix := env.getD "IPCGEN_MARKER_PREFIX" default.markerPrefix
    externCrates := env.list "IPCGEN_EXTERN_CRATES" }

/-- Explicit values, taken as they are. -/
structure Overrides where
  rootNamespace : Option String := none
  contextType : Option String := none
  serviceTrait : Option String := none
  enclosingType : Option String := none
  functionName : Option String := none
  markerPrefix : Option String := none
  externCrates : Option (List String) := none
deriving DecidableEq, Repr, Inhabited

/-- The settings with some values replaced. -/
def override (s : Settings) (o : Overrides) : Settings :=
  { rootNamespace := (o.rootNamespace.map ItemPath.mk).getD s.rootNamespace
    contextType := (o.contextType.map ItemPath.mk).getD s.contextType
    serviceTrait := (o.serviceTrait.map ItemPath.mk).getD s.serviceTrait
    enclosingType := (o.enclosingType.map ItemPath.mk).getD s.enclosingType
    functionName := o.functionName.getD s.functionName
    markerPrefix := o.markerPrefix.getD s.markerPrefix
    externCrates := o.externCrates.getD s.externCrates }

/-- Overrides first, then the environment, then the defaults. -/
def resolve (env : Environment) (o : Overrides) : Settings := (ofEnvironment env).override o

/-- The module of the enclosing type, where the generated function lives. -/
def dispatcher (s : Settings) : ItemPath := s.enclosingType.parentOrRoot

end Settings

end ServiceDispatch
