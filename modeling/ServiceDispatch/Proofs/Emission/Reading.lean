import ServiceDispatch.Proofs.Emission.Execution
import ServiceDispatch.Settings
import ServiceDispatch.Text.Blank

/-!
# Reading the generated function

The text of a generated file is read back line by line. Every statement stands on lines of its
own, with fixed words at both ends, so the names between those words may be any text without a
line break. The names in the settings are known to the reader, and may be any text at all.
-/

namespace ServiceDispatch.Emission

/-- A line of the body of the generated function. -/
inductive Line where
  | guard (type : String)
  | ifPayload
  | downcast (mutable : Bool) (type : String)
  | construct (call : Call)
  | returnService
  | returnNone
  /-- The end of a block. -/
  | close
  /-- The value of the last line: nothing. -/
  | last
deriving DecidableEq, Repr

/-! ## Characters -/

/-- Whether a comment line or an attribute line begins. -/
def opensTrivia (cs : List Char) : Bool :=
  "//".toList.isPrefixOf cs || "#[".toList.isPrefixOf cs

/-- What follows after blanks, comment lines and attribute lines; `inside` tells whether such a
line has begun. -/
def skipTrivia (inside : Bool) : List Char → List Char
  | [] => []
  | c :: cs =>
    if inside then skipTrivia (c != '\n') cs
    else if opensTrivia (c :: cs) then skipTrivia true cs
    else if Text.isBlank c then skipTrivia false cs
    else c :: cs

/-- The rest of the line, and what follows after its line break. -/
def cutLine (cs : List Char) : List Char × List Char :=
  (cs.takeWhile (· ≠ '\n'), (cs.dropWhile (· ≠ '\n')).drop 1)

/-! ## Calls -/

/-- The words for the context as an argument. -/
def contextWords : List (String × Passing) :=
  [("::std::clone::Clone::clone(&*context)", .value), ("&*context", .shared),
    ("&mut *context", .mutable)]

/-- The words for the payload as a further argument. -/
def payloadWords : List (String × Option Passing) :=
  [("", none), (", *parameter", some .value), (", &*parameter", some .shared),
    (", &mut *parameter", some .mutable)]

/-- The words for all arguments. -/
def argumentWords : List (List Char × Passing × Option Passing) :=
  contextWords.flatMap fun (context, passing) =>
    payloadWords.map fun (payload, passing?) =>
      ("(".toList ++ context.toList ++ payload.toList ++ ")".toList, passing, passing?)

/-- The arguments at the end of a text that is given from the back, and what stands before them. -/
def argumentsFromBack? (back : List Char) : Option (List Char × Passing × Option Passing) :=
  argumentWords.findSome? fun (words, passings) =>
    (List.isPrefixOf? words.reverse back).map (·, passings)

/-- The call that a text denotes: the path of a function, and its arguments. -/
def Call.ofText? (cs : List Char) : Option Call :=
  (argumentsFromBack? cs.reverse).map fun (callee, context, payload) =>
    ⟨String.ofList callee.reverse, context, payload⟩

/-! ## Lines -/

/-- A form of lines: the words at both ends, and what the text between them makes. -/
structure LineForm where
  start : List Char
  finish : List Char
  line? : List Char → Option Line

/-- The type of a service in a box. -/
def boxedService (settings : Settings) : String :=
  "::std::boxed::Box<dyn " ++ settings.serviceTrait.text ++ ">"

namespace LineForm

/-- Read a line of a form. -/
def read? (form : LineForm) (cs : List Char) : Option (Line × List Char) := do
  let (line, rest) := cutLine (← List.isPrefixOf? form.start cs)
  return (← form.line? (← List.isSuffixOf? form.finish line), rest)

/-- A form without a variable part. -/
def fixed (words : String) (line : Line) : LineForm :=
  ⟨words.toList, [], fun between => if between.isEmpty then some line else none⟩

/-- The head of a guard. -/
def guard : LineForm :=
  ⟨"if type_id == ::std::any::TypeId::of::<".toList, ">() \x7b".toList,
    fun type => some (.guard (String.ofList type))⟩

/-- The head of the branch for a present payload. -/
def ifPayload : LineForm :=
  fixed "if let ::std::option::Option::Some(parameter) = parameter \x7b" .ifPayload

/-- A downcast of the payload. -/
def downcast (mutable : Bool) : LineForm :=
  ⟨(if mutable then "let mut parameter = parameter.downcast::<"
      else "let parameter = parameter.downcast::<").toList, ">().ok()?;".toList,
    fun type => some (.downcast mutable (String.ofList type))⟩

/-- The binding of a new service. -/
def construct (settings : Settings) : LineForm :=
  ⟨"let service: ".toList ++ (boxedService settings).toList ++ " = ::std::boxed::Box::new(".toList,
    ");".toList, fun call => (Call.ofText? call).map .construct⟩

/-- The return of the service. -/
def returnService : LineForm :=
  fixed "return ::std::option::Option::Some(service);" .returnService

/-- The return of nothing. -/
def returnNone : LineForm := fixed "return ::std::option::Option::None;" .returnNone

/-- The end of a block. -/
def close : LineForm := fixed "\x7d" .close

/-- The value of the last line. -/
def last : LineForm := fixed "::std::option::Option::None" .last

/-- All forms of lines. -/
def all (settings : Settings) : List LineForm :=
  [guard, ifPayload, downcast false, downcast true, construct settings, returnService, returnNone,
    close, last]

end LineForm

/-- Read a line. -/
def readLine? (settings : Settings) (cs : List Char) : Option (Line × List Char) :=
  (LineForm.all settings).findSome? (·.read? cs)

/-- Read all lines, at most `n`. -/
def readLines? (settings : Settings) : Nat → List Char → Option (List Line)
  | 0, cs => if (skipTrivia false cs).isEmpty then some [] else none
  | n + 1, cs =>
    match skipTrivia false cs with
    | [] => some []
    | c :: cs => do
      let (line, rest) ← readLine? settings (c :: cs)
      return line :: (← readLines? settings n rest)

/-! ## Blocks -/

/-- A block that is still open: how it becomes a statement, and the statements before it, latest
first. -/
structure OpenBlock where
  statement : List Statement → Statement
  before : List Statement

/-- The statements of the function, given those of the innermost open block, latest first. The
last line of the function is followed by the ends of the function and of the block around it. -/
def statementsOn : List Statement → List OpenBlock → List Line → Option (List Statement)
  | done, blocks, .guard type :: rest => statementsOn [] (⟨.guard type, done⟩ :: blocks) rest
  | done, blocks, .ifPayload :: rest => statementsOn [] (⟨.ifPayload, done⟩ :: blocks) rest
  | done, block :: blocks, .close :: rest =>
    statementsOn (block.statement done.reverse :: block.before) blocks rest
  | done, blocks, .downcast mutable type :: rest =>
    statementsOn (.downcast mutable type :: done) blocks rest
  | done, blocks, .construct call :: rest => statementsOn (.construct call :: done) blocks rest
  | done, blocks, .returnService :: rest => statementsOn (.returnService :: done) blocks rest
  | done, blocks, .returnNone :: rest => statementsOn (.returnNone :: done) blocks rest
  | done, [], [.last, .close, .close] => some done.reverse
  | _, _, _ => none

/-! ## The function -/

/-- The head of the block around the function. -/
def implHead (settings : Settings) : String := "impl " ++ settings.enclosingType.text ++ " \x7b"

/-- The head of the function. -/
def functionHead (settings : Settings) : String :=
  "pub fn " ++ settings.functionName ++
    "(type_id: ::std::any::TypeId, context: &mut " ++ settings.contextType.text ++
    ", parameter: ::std::option::Option<::std::boxed::Box<dyn ::std::any::Any>>)" ++
    " -> ::std::option::Option<" ++ boxedService settings ++ "> \x7b"

/-- What follows after both heads. -/
def afterHead? (settings : Settings) (cs : List Char) : Option (List Char) := do
  let rest ← List.isPrefixOf? (implHead settings).toList (skipTrivia false cs)
  List.isPrefixOf? (functionHead settings).toList (skipTrivia false rest)

/-- The body of the function in a generated file. -/
def body? (settings : Settings) (text : String) : Option (List Statement) := do
  let rest ← afterHead? settings text.toList
  statementsOn [] [] (← readLines? settings rest.length rest)

/-- Run the function in a generated file. -/
def execute? {Context Value Service : Type*} (settings : Settings) (text : String)
    (runtime : Runtime Context Value Service) (requested : ItemPath) (context : Context)
    (payload : Option Value) : Option (Outcome Context Service) :=
  (body? settings text).bind (runBody runtime · requested context payload)

end ServiceDispatch.Emission
