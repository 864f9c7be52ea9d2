import ServiceDispatch.Proofs.Resolution.ResolvedTy
import ServiceDispatch.Proofs.Results

/-!
# Parts of types

The leaves of a type that resolution reads are its paths without their arguments, array lengths and
constant arguments. A resolved type has the meaning of one of these paths wherever it has a path,
and lengths and constants of the type.
-/

namespace ServiceDispatch

/-- A leaf of a type as written. -/
inductive TyPart where
  | path (path : UsePath)
  /-- An array length. -/
  | length (tokens : List Token)
  /-- A constant argument. -/
  | const (tokens : List Token)

/-- A leaf of a resolved type. -/
inductive ResolvedPart where
  | path (path : ItemPath)
  /-- An array length. -/
  | length (tokens : List Token)
  /-- A constant argument. -/
  | const (tokens : List Token)

mutual

/-- The leaves of a type. -/
def Ty.parts : Ty → List TyPart
  | .path rooted segments =>
    .path ⟨rooted, segments.map Segment.name⟩ :: Segment.partsOfAll segments
  | .tuple elems _ => Ty.partsOfAll elems
  | .array elem length => .length length :: elem.parts
  | .slice elem => elem.parts
  | .reference _ _ target => target.parts
  | .paren inner => inner.parts
  | .qualified _ => []
  | .object _ => []
  | .other _ => []

/-- The leaves of several types. -/
def Ty.partsOfAll : List Ty → List TyPart
  | [] => []
  | t :: ts => t.parts ++ Ty.partsOfAll ts

/-- The leaves of the arguments of path segments. -/
def Segment.partsOfAll : List Segment → List TyPart
  | [] => []
  | .mk _ args :: rest => args.parts ++ Segment.partsOfAll rest

/-- The leaves of the arguments of a segment. -/
def PathArgs.parts : PathArgs → List TyPart
  | .none => []
  | .angled _ args _ => TyArg.partsOfAll args
  | .call _ => []

/-- The leaves of generic arguments. -/
def TyArg.partsOfAll : List TyArg → List TyPart
  | [] => []
  | arg :: args => arg.parts ++ TyArg.partsOfAll args

/-- The leaves of a generic argument. -/
def TyArg.parts : TyArg → List TyPart
  | .type type => type.parts
  | .const value => [.const value]
  | .lifetime _ => []
  | .binding _ => []

end

namespace ResolvedTy

mutual

/-- The leaves of a resolved type. -/
def parts : ResolvedTy → List ResolvedPart
  | .path base => [.path base]
  | .applied base args => .path base :: partsOfArgs args
  | .tuple elems => partsOfAll elems
  | .array elem length => .length length :: elem.parts
  | .slice elem => elem.parts
  | .reference _ target => target.parts

/-- The leaves of several resolved types. -/
def partsOfAll : List ResolvedTy → List ResolvedPart
  | [] => []
  | t :: ts => t.parts ++ partsOfAll ts

/-- The leaves of several resolved arguments. -/
def partsOfArgs : List ResolvedArg → List ResolvedPart
  | [] => []
  | arg :: args => partsOfArg arg ++ partsOfArgs args

/-- The leaves of a resolved argument. -/
def partsOfArg : ResolvedArg → List ResolvedPart
  | .static => []
  | .type t => t.parts
  | .const value => [.const value]

end

end ResolvedTy

/-! ## Where the leaves of a resolved type come from -/

/-- Whether a leaf of a resolved type is among the given leaves, or the meaning of a path among
them. -/
def ResolvedPart.ComesFrom (base : ResolvedTy.BaseResolver) (parts : List TyPart) :
    ResolvedPart → Prop
  | .path p => ∃ whole rooted segments, base whole rooted segments = .ok p ∧
      .path ⟨rooted, segments.map Segment.name⟩ ∈ parts
  | .length tokens => .length tokens ∈ parts
  | .const tokens => .const tokens ∈ parts

/-- A leaf comes from all lists with the leaves that it comes from. -/
theorem ResolvedPart.ComesFrom.mono {base : ResolvedTy.BaseResolver} {parts parts' : List TyPart}
    (hparts : parts ⊆ parts') {part : ResolvedPart} (hpart : part.ComesFrom base parts) :
    part.ComesFrom base parts' := by
  cases part with
  | path p =>
    obtain ⟨whole, rooted, segments, hp, hmem⟩ := hpart
    exact ⟨whole, rooted, segments, hp, hparts hmem⟩
  | length tokens => exact hparts hpart
  | const tokens => exact hparts hpart

namespace ResolvedTy

open Results

variable {base : BaseResolver}

mutual

/-- The leaves of a resolved type come from the type. The induction follows the resolution, with one
statement for each kind of part that it goes through. -/
theorem comesFrom_of_ofTy (t : Ty) :
    ∀ u, ofTy base t = .ok u → ∀ part ∈ u.parts, part.ComesFrom base t.parts := by
  intro u hu
  cases t with
  | path rooted segments =>
    rw [ofTy] at hu
    obtain ⟨p, hp, hu⟩ := bind_eq_ok_iff.mp hu
    obtain ⟨args, hargs, hu⟩ := bind_eq_ok_iff.mp hu
    have hpath : (ResolvedPart.path p).ComesFrom base (Ty.path rooted segments).parts :=
      ⟨_, rooted, segments, hp, List.mem_cons_self⟩
    cases args with
    | none =>
      obtain rfl := Except.ok.inj hu
      exact List.forall_mem_singleton.mpr hpath
    | some args =>
      obtain rfl := Except.ok.inj hu
      refine List.forall_mem_cons.mpr ⟨hpath, fun part hpart => ?_⟩
      have hcomes := comesFrom_of_ofLastArgs segments _ args hargs part hpart
      exact hcomes.mono (List.subset_cons_self _ _)
  | tuple elems trailing =>
    rw [ofTy] at hu
    obtain ⟨us, hus, hu⟩ := bind_eq_ok_iff.mp hu
    obtain rfl := Except.ok.inj hu
    exact comesFrom_of_ofTys elems us hus
  | array elem length =>
    rw [ofTy] at hu
    obtain ⟨v, hv, hu⟩ := bind_eq_ok_iff.mp hu
    obtain rfl := Except.ok.inj hu
    have hlength : (ResolvedPart.length length).ComesFrom base (Ty.array elem length).parts :=
      List.mem_cons_self
    refine List.forall_mem_cons.mpr ⟨hlength, ?_⟩
    intro part hpart
    exact (comesFrom_of_ofTy elem v hv part hpart).mono (List.subset_cons_self _ _)
  | slice elem =>
    rw [ofTy] at hu
    obtain ⟨v, hv, hu⟩ := bind_eq_ok_iff.mp hu
    obtain rfl := Except.ok.inj hu
    rw [ResolvedTy.parts, Ty.parts]
    exact comesFrom_of_ofTy _ v hv
  | reference lifetime mutable target =>
    rw [ofTy] at hu
    obtain ⟨-, -, hu⟩ := bind_eq_ok_iff.mp hu
    obtain ⟨v, hv, hu⟩ := bind_eq_ok_iff.mp hu
    obtain rfl := Except.ok.inj hu
    rw [ResolvedTy.parts, Ty.parts]
    exact comesFrom_of_ofTy _ v hv
  | paren inner =>
    rw [ofTy] at hu
    exact comesFrom_of_ofTy inner u hu
  | qualified tokens => exact nomatch hu
  | object tokens => exact nomatch hu
  | other tokens => exact nomatch hu

/-- The leaves of several resolved types come from the types. -/
theorem comesFrom_of_ofTys (ts : List Ty) :
    ∀ us, ofTys base ts = .ok us →
      ∀ part ∈ partsOfAll us, part.ComesFrom base (Ty.partsOfAll ts) := by
  intro us hus
  cases ts with
  | nil =>
    obtain rfl := Except.ok.inj hus
    exact fun _ h => absurd h List.not_mem_nil
  | cons t ts =>
    rw [ofTys] at hus
    obtain ⟨u, hu, hus⟩ := bind_eq_ok_iff.mp hus
    obtain ⟨us', hus', hus⟩ := bind_eq_ok_iff.mp hus
    obtain rfl := Except.ok.inj hus
    refine List.forall_mem_append.mpr ⟨?_, ?_⟩
    · intro part hpart
      exact (comesFrom_of_ofTy t u hu part hpart).mono (List.subset_append_left _ _)
    · intro part hpart
      exact (comesFrom_of_ofTys ts us' hus' part hpart).mono (List.subset_append_right _ _)

/-- The leaves of the resolved arguments of a path come from its segments. -/
theorem comesFrom_of_ofLastArgs (segments : List Segment) :
    ∀ whole args, ofLastArgs base whole segments = .ok (some args) →
      ∀ part ∈ partsOfArgs args, part.ComesFrom base (Segment.partsOfAll segments) := by
  intro whole args hargs
  cases segments with
  | nil => exact nomatch hargs
  | cons segment segments =>
    cases segment with
    | mk name written =>
      cases segments with
      | nil =>
        rw [ofLastArgs] at hargs
        intro part hpart
        exact (comesFrom_of_ofArgs written whole args hargs part hpart).mono
          (List.subset_append_left _ _)
      | cons next rest =>
        rw [ofLastArgs] at hargs
        intro part hpart
        exact (comesFrom_of_ofLastArgs (next :: rest) whole args hargs part hpart).mono
          (List.subset_append_right _ _)

/-- The leaves of the resolved arguments of a segment come from the arguments. -/
theorem comesFrom_of_ofArgs (written : PathArgs) :
    ∀ whole args, ofArgs base whole written = .ok (some args) →
      ∀ part ∈ partsOfArgs args, part.ComesFrom base written.parts := by
  intro whole args hargs
  cases written with
  | none => exact nomatch hargs
  | angled turbofish written trailing =>
    rw [ofArgs] at hargs
    obtain ⟨args', hargs', hargs⟩ := bind_eq_ok_iff.mp hargs
    obtain rfl := Option.some.inj (Except.ok.inj hargs)
    exact comesFrom_of_ofTyArgs written whole args' hargs'
  | call tokens => exact nomatch hargs

/-- The leaves of several resolved arguments come from the arguments. -/
theorem comesFrom_of_ofTyArgs (written : List TyArg) :
    ∀ whole args, ofTyArgs base whole written = .ok args →
      ∀ part ∈ partsOfArgs args, part.ComesFrom base (TyArg.partsOfAll written) := by
  intro whole args hargs
  cases written with
  | nil =>
    obtain rfl := Except.ok.inj hargs
    exact fun _ h => absurd h List.not_mem_nil
  | cons arg written =>
    rw [ofTyArgs] at hargs
    obtain ⟨u, hu, hargs⟩ := bind_eq_ok_iff.mp hargs
    obtain ⟨us, hus, hargs⟩ := bind_eq_ok_iff.mp hargs
    obtain rfl := Except.ok.inj hargs
    refine List.forall_mem_append.mpr ⟨?_, ?_⟩
    · intro part hpart
      exact (comesFrom_of_ofTyArg arg whole u hu part hpart).mono (List.subset_append_left _ _)
    · intro part hpart
      have hcomes := comesFrom_of_ofTyArgs written whole us hus part hpart
      exact hcomes.mono (List.subset_append_right _ _)

/-- The leaves of a resolved argument come from the argument. -/
theorem comesFrom_of_ofTyArg (written : TyArg) :
    ∀ whole arg, ofTyArg base whole written = .ok arg →
      ∀ part ∈ partsOfArg arg, part.ComesFrom base written.parts := by
  intro whole arg harg
  cases written with
  | type t =>
    rw [ofTyArg] at harg
    obtain ⟨u, hu, harg⟩ := bind_eq_ok_iff.mp harg
    obtain rfl := Except.ok.inj harg
    exact comesFrom_of_ofTy t u hu
  | lifetime name =>
    rw [ofTyArg] at harg
    split at harg
    · obtain rfl := Except.ok.inj harg
      exact fun _ h => absurd h List.not_mem_nil
    · exact nomatch harg
  | const value =>
    obtain rfl := Except.ok.inj harg
    exact List.forall_mem_singleton.mpr List.mem_cons_self
  | binding tokens => exact nomatch harg

end

end ResolvedTy

end ServiceDispatch
