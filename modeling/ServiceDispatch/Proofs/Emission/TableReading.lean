import ServiceDispatch.CrateScan
import ServiceDispatch.Proofs.Emission.ReadBack

/-!
# Reading tables back

Not only the statements of a generated function are read back from its text, but the whole table.
A call names its function by the type of the guard around it, so that the rest of its path is the
constructor, and a text is written for one table only.
-/

namespace ServiceDispatch

namespace Emission

/-! ## Rules -/

/-- The constructor that a call names, if the call is one to a function of the type. -/
def Call.constructor? (call : Call) (type : String) : Option String :=
  (List.isPrefixOf? (type ++ "::").toList call.callee.toList).map String.ofList

/-- The construction from a payload that the statements of a branch make. -/
def payloadConstruction? (type : String) : List Statement → Option PayloadConstruction
  | [.downcast _ payloadType, .construct call, .returnService] => do
    return ⟨← call.constructor? type, call.context, ← call.payload, payloadType⟩
  | _ => none

/-- The construction from the context that the last statements of a guard make, or that they make
none. -/
def contextConstruction? (type : String) : List Statement → Option (Option ContextConstruction)
  | [.construct call, .returnService] =>
    (call.constructor? type).map fun constructor => some ⟨constructor, call.context⟩
  | [.returnNone] => some none
  | _ => none

/-- The rule that a guard is written for. -/
def rule? : Statement → Option DispatchRule
  | .guard type (.ifPayload branch :: rest) => do
    return ⟨⟨type⟩, ← contextConstruction? type rest, some (← payloadConstruction? type branch)⟩
  | .guard type rest => do return ⟨⟨type⟩, ← contextConstruction? type rest, none⟩
  | _ => none

/-- The table that a generated file is written for. -/
def table? (settings : Settings) (text : String) : Option DispatchTable :=
  (body? settings text).bind (·.mapM rule?)

/-- The name of a function is what follows the path of its type. -/
theorem constructor?_member (type constructor : String) (context : Passing)
    (payload : Option Passing) :
    Call.constructor? ⟨type ++ "::" ++ constructor, context, payload⟩ type = some constructor := by
  have hcallee : (type ++ "::" ++ constructor).toList =
      (type ++ "::").toList ++ constructor.toList := String.toList_append
  rw [Call.constructor?, hcallee, isPrefixOf?_append, Option.map_some, String.ofList_toList]

/-- The end of a guard is read as the construction from the context. -/
theorem contextConstruction?_contextBranch (target : ItemPath) (how? : Option ContextConstruction) :
    contextConstruction? target.text (contextBranch target how?) = some how? := by
  cases how? with
  | none => rfl
  | some how => simp [contextBranch, contextConstruction?, contextCall, constructor?_member]

/-- A guard is read as its rule, since no construction from the context begins with a branch for a
payload. -/
theorem rule?_guardOf (rule : DispatchRule) : rule? (guardOf rule) = some rule := by
  obtain ⟨target, contextOnly, parameterized⟩ := rule
  have hcontext := contextConstruction?_contextBranch target contextOnly
  cases parameterized with
  | none =>
    cases contextOnly with
    | none => rfl
    | some how =>
      simp only [contextBranch] at hcontext
      simp [guardOf, rule?, contextBranch, hcontext]
  | some how =>
    have hpayload : payloadConstruction? target.text
        [.downcast (how.payload == .mutable) how.payloadType, .construct (payloadCall target how),
          .returnService] = some how := by
      simp [payloadConstruction?, payloadCall, constructor?_member]
    simp [guardOf, payloadBranch, rule?, hcontext, hpayload]

/-- The text of a plain table is read back as the table. -/
theorem table?_source (settings : Settings) {table : DispatchTable}
    (htable : ∀ rule ∈ table, IsPlainRule rule) :
    table? settings (table.source settings) = some table := by
  have hrules : (programOf table).mapM rule? = some table := by
    rw [programOf, List.mapM_map]
    clear htable
    induction table with
    | nil => rfl
    | cons rule table ih => simp [rule?_guardOf, ih]
  rw [table?, body?_source settings htable, Option.bind_some, hrules]

/-! ## Texts and tables -/

/-- Plain tables are written as the same text only if they are the same. So a file that holds the
text of a plain table is current for an artifact exactly if the artifact has this table. Plain rules
exclude only names with line breaks, which no source text has. -/
theorem source_eq_source_iff (settings : Settings) {table other : DispatchTable}
    (htable : ∀ rule ∈ table, IsPlainRule rule) (hother : ∀ rule ∈ other, IsPlainRule rule) :
    (table.source settings = other.source settings ↔ table = other) ∧
      ∀ (excluded : List Excluded) (tree : Files.FileTree) (path : Files.FilePath),
        tree.text? path = some (other.source settings) →
          ((Artifact.ofSelection settings ⟨table, excluded⟩).isCurrent tree path ↔
            table = other) := by
  have hsame : table.source settings = other.source settings ↔ table = other := by
    constructor
    · intro htext
      have hread := table?_source settings htable
      rw [htext, table?_source settings hother] at hread
      exact (Option.some.inj hread).symm
    · rintro rfl
      rfl
  refine ⟨hsame, fun excluded tree path hheld => ?_⟩
  rw [Artifact.isCurrent, hheld, beq_iff_eq, Option.some.injEq, eq_comm]
  exact hsame

/-- Two tables with the same calls: the type of one is the module of the other one's type. -/
def alikeCalls : DispatchTable × DispatchTable :=
  ([⟨⟨"crate::fs"⟩, some ⟨"Proxy::new", .shared⟩, none⟩],
    [⟨⟨"crate::fs::Proxy"⟩, some ⟨"new", .shared⟩, none⟩])

/-- Although their calls are the same text, the files of both tables differ, and one is not current
where the other one is held. -/
theorem source_ne_source_alikeCalls :
    (∀ rule ∈ alikeCalls.1, IsPlainRule rule) ∧ (∀ rule ∈ alikeCalls.2, IsPlainRule rule) ∧
      alikeCalls.1.source {} ≠ alikeCalls.2.source {} ∧
      ¬ (Artifact.ofSelection {} ⟨alikeCalls.1, []⟩).isCurrent
        ⟨[(["out.rs"], .file (.text (alikeCalls.2.source {})))]⟩ ⟨"out.rs"⟩ := by
  have hfirst : ∀ rule ∈ alikeCalls.1, IsPlainRule rule := by decide
  have hsecond : ∀ rule ∈ alikeCalls.2, IsPlainRule rule := by decide
  have hne : alikeCalls.1 ≠ alikeCalls.2 := by decide
  obtain ⟨htexts, hcurrent⟩ := source_eq_source_iff {} hfirst hsecond
  have hheld : Files.FileTree.text? ⟨[(["out.rs"], .file (.text (alikeCalls.2.source {})))]⟩
      ⟨"out.rs"⟩ = some (alikeCalls.2.source {}) := by rfl
  exact ⟨hfirst, hsecond, fun heq => hne (htexts.mp heq),
    fun h => hne ((hcurrent [] _ _ hheld).mp h)⟩

end Emission

end ServiceDispatch
