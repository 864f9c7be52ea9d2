import ServiceDispatch.Proofs.Feed.Order
import ServiceDispatch.Proofs.Feed.TestOnly
import ServiceDispatch.Proofs.Soundness.Rules

/-!
# What constructors return

A function is attached to a type as a constructor if it stands in a block of the type, can be
called, and returns a path that ends in `Self` or in the name of the type as the block writes it.
Whether the path leads to the type is not asked. It does if it is `Self` or the path of the block; a
path of its own, with the same name at its end, may lead anywhere.
-/

namespace ServiceDispatch

/-- A type as a path of names, if it is one. -/
def Ty.usePath? : Ty → Option UsePath
  | .path rooted segments => some ⟨rooted, segments.map Segment.name⟩
  | _ => none

/-- A type resolves to the item that its path leads to. -/
theorem SymbolTable.resolveItem?_eq_bind (table : SymbolTable) (scope : ItemPath) (t : Ty) :
    table.resolveItem? scope t = t.usePath?.bind fun path =>
      (table.resolveNames scope path.rooted path.segments).toOption.filter table.hasItem := by
  cases t with
  | path rooted segments =>
    rw [resolveItem?, resolveItemBy?, Ty.usePath?, Option.bind_some, resolveNames]
    cases table.resolveNamesBy table.lookup scope rooted (segments.map Segment.name) <;> rfl
  | _ => rfl

/-- Whether a type that is written in a block of a type means this type: it is `Self`, or a path
that resolves to it in the module of the block. -/
def Ty.Returns (table : SymbolTable) (place target : ItemPath) (result : Ty) : Prop :=
  result.usePath? = some ⟨false, ["Self"]⟩ ∨ table.resolveItem? place result = some target

/-- A function of the sources that is attached to a type as a constructor: it stands in a block of
the type without trait and parameters and can be called by the generated function. Its result is a
path whose last name, without arguments, is `Self` or the last name of the type of the block. -/
structure AttachedFunction (settings : Settings) (sources : List Source) (target : ItemPath) where
  place : ItemPath
  decl : ImplDecl
  method : MethodDecl
  /-- The last name of the type of the block. -/
  terminal : String
  result : Ty
  occurs : ∃ source ∈ sources, Occurs source.module source.items place (.impl decl)
  plain : decl.hasTrait = false ∧ decl.isGeneric = false ∧ isTestOnly decl.attributes = false
  target : (Feed.ofSources settings sources).symbols.resolveItem? place decl.selfType = some target
  member : method ∈ decl.methods
  callable : method.hasReceiver = false ∧ method.isGeneric = false ∧ method.isAsync = false ∧
    method.isUnsafe = false ∧ isTestOnly method.attributes = false
  visible : settings.dispatcher.isUnder (method.visibility.scope place)
  last : decl.selfType.terminal? = some terminal
  returned : method.result = some result
  named : result.isNamed terminal

namespace Feed

variable {settings : Settings} {sources : List Source}

/-- The blocks that belong to a type are those whose type resolves to it. -/
theorem mem_blocksOf_iff {target : ItemPath} {block : ImplBlock} :
    block ∈ blocksOf settings sources target ↔
      .impl block ∈ allDeclarations settings sources ∧
        (ofSources settings sources).symbols.resolveItem? block.scope block.selfType =
          some target := by
  rw [blocksOf, List.mem_filter, beq_iff_eq, mem_filterMap_impl?_iff]

/-- The constructors of a candidate are those of the blocks that belong to it. -/
theorem constructors_of_mem_candidates {c : Candidate}
    (hc : c ∈ (ofSources settings sources).candidates) :
    c.constructors = (blocksOf settings sources c.name).flatMap (·.constructors) := by
  rw [candidates_eq_map] at hc
  obtain ⟨type, -, rfl⟩ := List.mem_map.mp hc
  exact constructors_candidate settings sources settings.dispatcher type

/-- The constructors of a candidate are the functions that are attached to it. -/
theorem mem_constructors_iff {c : Candidate} (hc : c ∈ (ofSources settings sources).candidates)
    {constructor : Constructor} : constructor ∈ c.constructors ↔
      ∃ f : AttachedFunction settings sources c.name,
        constructor = f.method.constructor f.place := by
  rw [constructors_of_mem_candidates hc, List.mem_flatMap]
  constructor
  · rintro ⟨block, hblock, hconstructor⟩
    obtain ⟨hmem, htarget⟩ := mem_blocksOf_iff.mp hblock
    obtain ⟨source, hsource, place, decl, hoccurs, hdecl⟩ := impl_mem_allDeclarations_iff.mp hmem
    obtain ⟨hplain, terminal, hlast, rfl⟩ := ImplDecl.block?_eq_some_iff.mp hdecl
    obtain ⟨method, hmethod, rfl⟩ := List.mem_map.mp hconstructor
    obtain ⟨hmember, hcalled⟩ := List.mem_filter.mp hmethod
    obtain ⟨hcallable, hvisible, result, hresult, hnamed⟩ :=
      MethodDecl.isConstructor_iff.mp hcalled
    exact ⟨⟨place, decl, method, terminal, result, ⟨source, hsource, hoccurs⟩, hplain, htarget,
      hmember, hcallable, hvisible, hlast, hresult, hnamed⟩, rfl⟩
  · rintro ⟨f, rfl⟩
    obtain ⟨source, hsource, hoccurs⟩ := f.occurs
    have hdecl : f.decl.block? f.place settings.dispatcher =
        some (f.decl.blockOf f.place settings.dispatcher f.terminal) :=
      ImplDecl.block?_eq_some_iff.mpr ⟨f.plain, f.terminal, f.last, rfl⟩
    have hmem := impl_mem_allDeclarations_iff.mpr
      ⟨source, hsource, f.place, f.decl, hoccurs, hdecl⟩
    have hcalled := MethodDecl.isConstructor_iff.mpr
      ⟨f.callable, f.visible, f.result, f.returned, f.named⟩
    exact ⟨_, mem_blocksOf_iff.mpr ⟨hmem, f.target⟩,
      List.mem_map_of_mem (List.mem_filter.mpr ⟨f.member, hcalled⟩)⟩

/-- The constructors of a candidate are all functions in blocks of its type that can be called and
whose result ends in `Self` or in the name that the block has for the type. Such a function returns
the type if its result is `Self` or the path by which the block names the type. -/
theorem constructors_returns {c : Candidate} (hc : c ∈ (ofSources settings sources).candidates) :
    (∀ constructor, constructor ∈ c.constructors ↔
      ∃ f : AttachedFunction settings sources c.name,
        constructor = f.method.constructor f.place) ∧
    ∀ f : AttachedFunction settings sources c.name,
      f.result.usePath? = some ⟨false, ["Self"]⟩ ∨
        f.result.usePath? = f.decl.selfType.usePath? →
      f.result.Returns (ofSources settings sources).symbols f.place c.name := by
  refine ⟨fun constructor => mem_constructors_iff hc, fun f hpath => hpath.imp_right ?_⟩
  intro hpath
  rw [SymbolTable.resolveItem?_eq_bind, hpath, ← SymbolTable.resolveItem?_eq_bind, f.target]

/-- The service of a crate has its constructor, which is attached from the block beside it and
returns the service. -/
theorem constructors_returns_userService :
    ∃ c ∈ (ofSources {} twiceDeclared).candidates, c.constructors.map (·.name) = ["new"] ∧
      (∀ constructor, constructor ∈ c.constructors ↔
        ∃ f : AttachedFunction {} twiceDeclared c.name,
          constructor = f.method.constructor f.place) ∧
      ∀ f : AttachedFunction {} twiceDeclared c.name,
        f.result.usePath? = some ⟨false, ["Self"]⟩ ∨
          f.result.usePath? = f.decl.selfType.usePath? →
        f.result.Returns (ofSources {} twiceDeclared).symbols f.place c.name := by
  have hlast : (ofSources {} twiceDeclared).candidates.getLast?.map
      (fun c => c.constructors.map (·.name)) = some ["new"] := by decide +kernel
  obtain ⟨c, hc, hnames⟩ := Option.map_eq_some_iff.mp hlast
  have hmem := List.mem_of_getLast? hc
  exact ⟨c, hmem, hnames, constructors_returns hmem⟩

/-- The candidates of a crate that is given by the texts of its modules, with the names of their
constructors. -/
def constructorsIn? (texts : List (ItemPath × String)) : Option (List (String × List String)) := do
  let sources ← texts.mapM fun (module, text) => Source.ofText? module text
  return (ofSources {} sources).candidates.map fun c => (c.name.text, c.constructors.map (·.name))

/-- Two types of one name, and a function in a block of one of them with some result. -/
def namesakes (result : String) : List (ItemPath × String) := [
  (⟨"crate::acc"⟩, "pub struct Svc;\nimpl Svc \x7b pub fn new(id: u8) -> " ++ result ++
    " \x7b todo!() \x7d \x7d\n"),
  (⟨"crate::other"⟩, "pub struct Svc;\n")]

/-- A function that returns the other type of the same name is taken for a constructor, although the
path of its result resolves to the other type. A result of another name is none. -/
theorem constructorsIn?_namesakes :
    constructorsIn? (namesakes "crate::other::Svc") =
        some [("crate::acc::Svc", ["new"]), ("crate::other::Svc", [])] ∧
      resolvedIn? (namesakes "crate::other::Svc") ⟨"crate::acc"⟩ "crate::other::Svc" =
        some "crate::other::Svc" ∧
      constructorsIn? (namesakes "u8") =
        some [("crate::acc::Svc", []), ("crate::other::Svc", [])] := by
  decide +kernel

end Feed

end ServiceDispatch
