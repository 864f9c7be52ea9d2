import Mathlib.Tactic.TypeStar
import ServiceDispatch.Dispatch

/-!
# Running the generated function

The generated function uses few forms of statements: guards on the requested type, a branch for
a present payload, a downcast that gives up on the wrong type, one binding of a new service, and
returns. This file gives them their meaning. The types of values and what a constructor does are
taken from a runtime, so nothing here depends on the services of one program.
-/

namespace ServiceDispatch.Emission

/-- A constructor call: the path of the function, and how it is handed the context and, if it
takes one, the payload. -/
structure Call where
  callee : String
  context : Passing
  payload : Option Passing
deriving DecidableEq, Repr

/-- A statement of the generated function. -/
inductive Statement where
  /-- A block that is entered if the requested type is the given one. -/
  | guard (type : String) (body : List Statement)
  /-- A block that is entered if there is a payload, which moves into it. -/
  | ifPayload (body : List Statement)
  /-- Rebind the payload as a value of a type, or return nothing. -/
  | downcast (mutable : Bool) (type : String)
  /-- Bind a new service. -/
  | construct (call : Call)
  /-- Return the service. -/
  | returnService
  /-- Return nothing. -/
  | returnNone

/-! ## States -/

/-- What a program runs on: the type of each value, and the effect of a constructor, which
returns a service and leaves something in place of the context it was handed. -/
structure Runtime (Context Value Service : Type*) where
  typeOf : Value → String
  construct : Call → Context → Option Value → Service × Context

/-- The outcome of a request: the service, the context afterwards, and the constructors that
ran. -/
structure Outcome (Context Service : Type*) where
  service : Option Service
  context : Context
  calls : List Call
deriving DecidableEq, Repr

/-- What the name of the payload is bound to. -/
inductive Binding (Value : Type*) where
  /-- The argument of the function. -/
  | argument (payload : Option Value)
  /-- A payload of unknown type. -/
  | boxed (value : Value)
  /-- A payload of known type. -/
  | typed (mutable : Bool) (value : Value)
  /-- Nothing any more: the payload moved into a block. -/
  | moved

/-- The state between two statements. -/
structure State (Context Value Service : Type*) where
  context : Context
  parameter : Binding Value
  service : Option Service
  calls : List Call

/-- What a statement comes to: the next statement, or the end of the function. -/
inductive Progress (Context Value Service : Type*) where
  | goesOn (state : State Context Value Service)
  | returned (outcome : Outcome Context Service)

variable {Context Value Service : Type*}

/-- The context after a call: only a mutable reference lets the caller see a change. -/
def Call.contextAfter (call : Call) (before after : Context) : Context :=
  if call.context = .mutable then after else before

namespace State

/-- The outcome of returning from a state. -/
def outcome (s : State Context Value Service) (service : Option Service) :
    Outcome Context Service :=
  ⟨service, s.context, s.calls⟩

/-- The payload that a call is handed; the payload has to be downcast before, and bound as
mutable if the call changes it. -/
def argument? (s : State Context Value Service) : Option Passing → Option (Option Value)
  | none => some none
  | some passing =>
    match s.parameter with
    | .typed mutable value => if passing = .mutable ∧ !mutable then none else some (some value)
    | _ => none

/-- The state after a call. -/
def afterCall (s : State Context Value Service) (runtime : Runtime Context Value Service)
    (call : Call) (payload : Option Value) : State Context Value Service :=
  let (service, after) := runtime.construct call s.context payload
  { s with
    context := call.contextAfter s.context after
    service := some service
    calls := s.calls ++ [call] }

end State

/-- At the end of a block the names bound in it are forgotten. -/
def Progress.leaveBlock (parameter : Binding Value) (service : Option Service) :
    Progress Context Value Service → Progress Context Value Service
  | .goesOn s => .goesOn { s with parameter, service }
  | .returned outcome => .returned outcome

/-! ## Meaning -/

mutual

/-- Run a statement for a requested type; nothing if the statement has no meaning in the state. -/
def Statement.run (runtime : Runtime Context Value Service) (requested : ItemPath) :
    Statement → State Context Value Service → Option (Progress Context Value Service)
  | .guard type body, s =>
    if requested.text = type then
      (runAll runtime requested body s).map (·.leaveBlock s.parameter s.service)
    else some (.goesOn s)
  | .ifPayload body, s =>
    match s.parameter with
    | .argument none => some (.goesOn s)
    | .argument (some value) =>
      (runAll runtime requested body { s with parameter := .boxed value }).map
        (·.leaveBlock .moved s.service)
    | _ => none
  | .downcast mutable type, s =>
    match s.parameter with
    | .boxed value =>
      if runtime.typeOf value = type then
        some (.goesOn { s with parameter := .typed mutable value })
      else some (.returned (s.outcome none))
    | _ => none
  | .construct call, s =>
    (s.argument? call.payload).map fun payload => .goesOn (s.afterCall runtime call payload)
  | .returnService, s => s.service.map fun service => .returned (s.outcome (some service))
  | .returnNone, s => some (.returned (s.outcome none))

/-- Run statements in order until one returns. -/
def runAll (runtime : Runtime Context Value Service) (requested : ItemPath) :
    List Statement → State Context Value Service → Option (Progress Context Value Service)
  | [], s => some (.goesOn s)
  | statement :: rest, s =>
    match statement.run runtime requested s with
    | some (.goesOn s) => runAll runtime requested rest s
    | ended => ended

end

/-- The body of the function: its statements, then nothing as the value of the last line. -/
def runBody (runtime : Runtime Context Value Service) (body : List Statement)
    (requested : ItemPath) (context : Context) (payload : Option Value) :
    Option (Outcome Context Service) :=
  match runAll runtime requested body ⟨context, .argument payload, none, []⟩ with
  | some (.goesOn s) => some (s.outcome none)
  | some (.returned outcome) => some outcome
  | none => none

end ServiceDispatch.Emission
