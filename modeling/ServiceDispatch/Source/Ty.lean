import ServiceDispatch.Token

/-!
# Types as written

The written form of a type, with as much structure as name resolution looks at: paths with
generic arguments, tuples, arrays, slices, references and parentheses. Every other form is
kept as its tokens. A type prints as a canonical token sequence.
-/

namespace ServiceDispatch

mutual

/-- A type as written. -/
inductive Ty where
  /-- A path; `rooted` tells whether it starts with `::`. -/
  | path (rooted : Bool) (segments : List Segment)
  /-- A path through a type, such as `<T as Trait>::Item`. -/
  | qualified (tokens : List Token)
  | tuple (elems : List Ty) (trailing : Bool)
  | array (elem : Ty) (length : List Token)
  | slice (elem : Ty)
  | reference (lifetime : Option String) (mutable : Bool) (target : Ty)
  | paren (inner : Ty)
  /-- An object type: trait bounds, with or without `dyn`. -/
  | object (tokens : List Token)
  /-- Pointers, function types, `impl` types, inferred types and the like. -/
  | other (tokens : List Token)

/-- A path segment. -/
inductive Segment where
  | mk (name : String) (args : PathArgs)

/-- The arguments of a path segment. -/
inductive PathArgs where
  | none
  /-- Arguments in angle brackets; `turbofish` tells whether `::` stands before them. -/
  | angled (turbofish : Bool) (args : List TyArg) (trailing : Bool)
  /-- Arguments in parentheses, with a result type. -/
  | call (tokens : List Token)

/-- A generic argument. -/
inductive TyArg where
  | lifetime (name : String)
  | type (type : Ty)
  | const (value : List Token)
  /-- An associated type, constant or bound. -/
  | binding (tokens : List Token)

end

instance : Inhabited Ty := ⟨.other []⟩

namespace Segment

/-- The name of a segment. -/
def name : Segment → String
  | .mk name _ => name

/-- The arguments of a segment. -/
def args : Segment → PathArgs
  | .mk _ args => args

end Segment

namespace PathArgs

/-- Whether a segment carries no arguments at all; empty brackets count as none. -/
def isEmpty : PathArgs → Bool
  | .none => true
  | .angled _ args _ => args.isEmpty
  | .call _ => false

end PathArgs

namespace TyArg

/-- Whether an argument is a lifetime. -/
def isLifetime : TyArg → Bool
  | .lifetime _ => true
  | _ => false

end TyArg

/-- Put the arguments in printed order: each is followed by its own comma or by none, and
lifetimes come before all others. -/
def arrangeArgs (args : List (Bool × List Token)) (trailing : Bool) : List Token :=
  let comma := Token.operator ","
  let last := args.length - 1
  let marked := args.zipIdx.map fun ((isLifetime, tokens), i) =>
    (isLifetime, tokens, decide (i < last) || trailing)
  let lifetimes := marked.filter (·.1)
  let others := marked.filter (!·.1)
  let print := fun (arg : Bool × List Token × Bool) => arg.2.1 ++ if arg.2.2 then comma else []
  let gap := match lifetimes.getLast? with
    | some (_, _, false) => if others.isEmpty then [] else comma
    | _ => []
  lifetimes.flatMap print ++ gap ++ others.flatMap print

mutual

/-- The printed tokens of a type. -/
def Ty.tokens : Ty → List Token
  | .path rooted segments =>
    (if rooted then Token.operator "::" else []) ++ Segment.tokensOfAll segments
  | .qualified tokens => tokens
  | .tuple elems trailing => [.group .paren (Ty.tokensOfAll elems trailing)]
  | .array elem length => [.group .bracket (elem.tokens ++ Token.operator ";" ++ length)]
  | .slice elem => [.group .bracket elem.tokens]
  | .reference lifetime mutable target =>
    Token.operator "&" ++ (lifetime.elim [] Token.lifetime) ++
      (if mutable then [.ident "mut"] else []) ++ target.tokens
  | .paren inner => [.group .paren inner.tokens]
  | .object tokens => tokens
  | .other tokens => tokens

/-- The printed tokens of types separated by commas. -/
def Ty.tokensOfAll : List Ty → Bool → List Token
  | [], _ => []
  | t :: ts, trailing =>
    t.tokens ++ (if ts.isEmpty && !trailing then [] else Token.operator ",") ++
      Ty.tokensOfAll ts trailing

/-- The printed tokens of segments separated by `::`. -/
def Segment.tokensOfAll : List Segment → List Token
  | [] => []
  | .mk name args :: rest =>
    .ident name :: args.tokens ++ (if rest.isEmpty then [] else Token.operator "::") ++
      Segment.tokensOfAll rest

/-- The printed tokens of the arguments of a segment. -/
def PathArgs.tokens : PathArgs → List Token
  | .none => []
  | .angled turbofish args trailing =>
    (if turbofish then Token.operator "::" else []) ++ Token.operator "<" ++
      arrangeArgs (TyArg.markedAll args) trailing ++ Token.operator ">"
  | .call tokens => tokens

/-- Generic arguments with their printed tokens, marked where they are lifetimes. -/
def TyArg.markedAll : List TyArg → List (Bool × List Token)
  | [] => []
  | .lifetime name :: rest => (true, Token.lifetime name) :: TyArg.markedAll rest
  | .type type :: rest => (false, type.tokens) :: TyArg.markedAll rest
  | .const value :: rest => (false, value) :: TyArg.markedAll rest
  | .binding tokens :: rest => (false, tokens) :: TyArg.markedAll rest

end

/-- The printed text of a type. -/
def Ty.text (t : Ty) : String := Token.printAll t.tokens

end ServiceDispatch
