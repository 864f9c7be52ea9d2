import ServiceDispatch.CodeBuffer
import ServiceDispatch.DispatchRule
import ServiceDispatch.Settings

/-!
# The source text of a dispatch table

A table is written as one function in an `impl` block of the enclosing type. Each rule becomes
a guard on the requested type, in table order. Inside a guard the construction from a payload
comes before the one from the context alone, and a guard without the latter ends by returning
nothing, so the first guard that holds always decides.
-/

namespace ServiceDispatch

/-! ## The words of the generated function -/

namespace Wording

/-- The first line of the file. -/
def header : String := "// This file is auto-generated by ipcgen. Do not edit manually."

/-- The second line of the file. -/
def rebuildHint : String := "// Rebuild or run `ipcgen generate` to regenerate."

/-- The constructor of a present value. -/
def some : String := "::std::option::Option::Some"

/-- The absent value. -/
def none : String := "::std::option::Option::None"

/-- The boxed trait object that a service is returned as. -/
def serviceBox (settings : Settings) : String :=
  "::std::boxed::Box<dyn " ++ settings.serviceTrait.text ++ ">"

/-- The head of the generated function. -/
def signature (settings : Settings) : String :=
  "pub fn " ++ settings.functionName ++
    "(type_id: ::std::any::TypeId, context: &mut " ++ settings.contextType.text ++
    ", parameter: ::std::option::Option<::std::boxed::Box<dyn ::std::any::Any>>)" ++
    " -> ::std::option::Option<" ++ serviceBox settings ++ ">"

/-- The head of the guard for one type. -/
def guardHead (target : ItemPath) : String :=
  "if type_id == ::std::any::TypeId::of::<" ++ target.text ++ ">()"

/-- The argument expression for the context. -/
def contextArgument : Passing → String
  | .value => "::std::clone::Clone::clone(&*context)"
  | .shared => "&*context"
  | .mutable => "&mut *context"

/-- The argument expression for the payload. -/
def payloadArgument : Passing → String
  | .value => "*parameter"
  | .shared => "&*parameter"
  | .mutable => "&mut *parameter"

/-- The head of the binding of the payload. -/
def payloadBinding : Passing → String
  | .mutable => "let mut parameter"
  | _ => "let parameter"

end Wording

open CodeBuffer (Step)

/-- The lines that construct a service by a call and return it. -/
def constructSteps (serviceBox call : String) : List Step :=
  [.line ("let service: " ++ serviceBox ++ " = ::std::boxed::Box::new(" ++ call ++ ");"),
    .line ("return " ++ Wording.some ++ "(service);")]

namespace PayloadConstruction

/-- The constructor call. -/
def call (how : PayloadConstruction) (target : ItemPath) : String :=
  target.text ++ "::" ++ how.constructor ++ "(" ++ Wording.contextArgument how.context ++ ", " ++
    Wording.payloadArgument how.payload ++ ")"

/-- The branch taken when a payload is present. -/
def steps (how : PayloadConstruction) (target : ItemPath) (serviceBox : String) : List Step :=
  [.enter ("if let " ++ Wording.some ++ "(parameter) = parameter"),
    .line (Wording.payloadBinding how.payload ++ " = parameter.downcast::<" ++ how.payloadType ++
      ">().ok()?;")] ++
  constructSteps serviceBox (how.call target) ++ [.leave]

end PayloadConstruction

namespace ContextConstruction

/-- The constructor call. -/
def call (how : ContextConstruction) (target : ItemPath) : String :=
  target.text ++ "::" ++ how.constructor ++ "(" ++ Wording.contextArgument how.context ++ ")"

end ContextConstruction

namespace DispatchRule

/-- The guard of one rule. -/
def steps (rule : DispatchRule) (serviceBox : String) : List Step :=
  [.enter (Wording.guardHead rule.target)] ++
  (match rule.parameterized with
    | some how => how.steps rule.target serviceBox
    | none => []) ++
  (match rule.contextOnly with
    | some how => constructSteps serviceBox (how.call rule.target)
    | none => [.line ("return " ++ Wording.none ++ ";")]) ++
  [.leave]

end DispatchRule

namespace DispatchTable

/-- The lines of the whole file. -/
def steps (table : DispatchTable) (settings : Settings) : List Step :=
  [.line Wording.header, .line Wording.rebuildHint, .line "",
    .enter ("impl " ++ settings.enclosingType.text),
    .line "#[allow(unused_variables, clippy::needless_return)]",
    .enter (Wording.signature settings)] ++
  table.flatMap (·.steps (Wording.serviceBox settings)) ++
  [.line Wording.none, .leave, .leave]

/-- The source text of a table. -/
def source (table : DispatchTable) (settings : Settings) : String :=
  (CodeBuffer.applyAll {} (steps table settings)).output

end DispatchTable

end ServiceDispatch
