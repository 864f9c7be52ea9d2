import ServiceDispatch.Proofs.Soundness.Occurrences

/-!
# What a table holds

The symbol table of some declarations has their items, modules and imports, and the root of the
crate.
-/

namespace ServiceDispatch.SymbolTable

/-! ## Items and imports -/

/-- The item that a declaration adds to a table. -/
def itemOf? : Declaration → Option ItemPath
  | .type declared => some declared.path
  | .name path => some path
  | _ => none

/-- The import that a declaration adds to a table. -/
def importOf? : Declaration → Option ModuleImport
  | .binding module binding => some ⟨module, binding⟩
  | _ => none

/-- The items of a table are those that it had, followed by those of its declarations in their
order. -/
theorem items_foldl_declare (declarations : List Declaration) (table : SymbolTable) :
    (declarations.foldl declare table).items = table.items ++ declarations.filterMap itemOf? := by
  induction declarations generalizing table with
  | nil => exact (List.append_nil _).symm
  | cons declaration rest ih =>
    rw [List.foldl_cons, ih]
    cases declaration with
    | type declared => exact List.append_assoc _ [declared.path] _
    | name path => exact List.append_assoc _ [path] _
    | _ => rfl

/-- The imports of a table are those that it had, followed by those of its declarations in their
order. -/
theorem imports_foldl_declare (declarations : List Declaration) (table : SymbolTable) :
    (declarations.foldl declare table).imports =
      table.imports ++ declarations.filterMap importOf? := by
  induction declarations generalizing table with
  | nil => exact (List.append_nil _).symm
  | cons declaration rest ih =>
    rw [List.foldl_cons, ih]
    cases declaration with
    | binding module binding => exact List.append_assoc _ [ModuleImport.mk module binding] _
    | _ => rfl

/-- External crates are neither items nor imports, so that adding them leaves both lists as they
are. -/
theorem foldl_addExternCrate (names : List String) (table : SymbolTable) :
    (names.foldl addExternCrate table).items = table.items ∧
      (names.foldl addExternCrate table).imports = table.imports := by
  induction names generalizing table with
  | nil => exact ⟨rfl, rfl⟩
  | cons name rest ih => exact ih (table.addExternCrate name)

/-- An item of a table is one of a declaration, since a table begins without items. -/
theorem hasItem_ofDeclarations_iff {externCrates : List String} {declarations : List Declaration}
    {p : ItemPath} : (ofDeclarations externCrates declarations).hasItem p ↔
      ∃ declaration ∈ declarations, itemOf? declaration = some p := by
  rw [hasItem, List.contains_iff_mem, ofDeclarations, items_foldl_declare,
    (foldl_addExternCrate externCrates {}).1, List.nil_append, List.mem_filterMap]

/-- An import of a table is one of a declaration, since a table begins without imports. -/
theorem mem_imports_ofDeclarations_iff {externCrates : List String}
    {declarations : List Declaration} {i : ModuleImport} :
    i ∈ (ofDeclarations externCrates declarations).imports ↔
      .binding i.module i.binding ∈ declarations := by
  rw [ofDeclarations, imports_foldl_declare, (foldl_addExternCrate externCrates {}).2,
    List.nil_append, List.mem_filterMap]
  constructor
  · rintro ⟨declaration, hmem, hi⟩
    cases declaration with
    | binding module binding =>
      obtain rfl := Option.some.inj hi
      exact hmem
    | _ => exact nomatch hi
  · exact fun hmem => ⟨_, hmem, rfl⟩

/-! ## Modules -/

/-- The modules of a table are those that it had and those of its declarations. A module that is
declared twice is one module. -/
theorem hasModule_foldl_declare_iff {declarations : List Declaration} {table : SymbolTable}
    {p : ItemPath} : (declarations.foldl declare table).hasModule p ↔
      table.hasModule p ∨ ∃ scope, .module p scope ∈ declarations := by
  induction declarations generalizing table with
  | nil => simp
  | cons declaration rest ih =>
    rw [List.foldl_cons, ih]
    cases declaration with
    | module path visibleIn =>
      have hdeclare : (table.declare (.module path visibleIn)).hasModule p ↔
          p = path ∨ table.hasModule p := by
        rw [declare, hasModule, scope?_declareModule]
        by_cases hpath : p = path
        · rw [if_pos hpath]
          exact ⟨fun _ => .inl hpath, fun _ => rfl⟩
        · rw [if_neg hpath, hasModule]
          exact ⟨.inr, fun h => h.resolve_left hpath⟩
      rw [hdeclare]
      constructor
      · rintro ((rfl | hbefore) | ⟨scope, hmem⟩)
        · exact .inr ⟨visibleIn, List.mem_cons_self⟩
        · exact .inl hbefore
        · exact .inr ⟨scope, List.mem_cons_of_mem _ hmem⟩
      · rintro (hbefore | ⟨scope, hmem⟩)
        · exact .inl (.inr hbefore)
        · rcases List.mem_cons.mp hmem with heq | hmem
          · obtain ⟨rfl, -⟩ := Declaration.module.inj heq
            exact .inl (.inl rfl)
          · exact .inr ⟨scope, hmem⟩
    | _ => simp [declare, declareItem, addImport, hasModule, scope?]

/-- A module of a table is the root or one of a declaration. -/
theorem hasModule_ofDeclarations_iff {externCrates : List String} {declarations : List Declaration}
    {p : ItemPath} : (ofDeclarations externCrates declarations).hasModule p ↔
      p = .root ∨ ∃ scope, .module p scope ∈ declarations := by
  rw [ofDeclarations, hasModule_foldl_declare_iff]
  refine or_congr_left ?_
  constructor
  · intro hmodule
    obtain ⟨scope, hscope⟩ := Option.isSome_iff_exists.mp hmodule
    exact (eq_root_of_scope?_externCrates hscope).1
  · rintro rfl
    rw [hasModule, scope?_foldl_addExternCrate]
    rfl

end ServiceDispatch.SymbolTable
