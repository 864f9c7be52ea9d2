import ServiceDispatch.Host
import ServiceDispatch.Proofs.Emission.ReadBack

/-!
# The generated function dispatches as its table

Executing the text of a table gives the outcome of the construction that the table chooses. A
guard for another type leaves the state as it is, and a guard for the requested type always
returns, so the first of them decides.
-/

namespace ServiceDispatch

open Emission (Binding Call Outcome Progress Runtime State Statement contextBranch contextCall
  execute? payloadBranch payloadCall)

variable {Context Value Service : Type*}

/-! ## The outcome of a table -/

namespace Construction

/-- The call of a construction. -/
def call : Construction → Call
  | .fromContext target how => contextCall target how
  | .fromPayload target how => payloadCall target how

/-- The payload that a construction is handed. -/
def argument (payload : Option Value) : Construction → Option Value
  | .fromContext _ _ => none
  | .fromPayload _ _ => payload

/-- What a construction comes to. -/
def outcome (construction : Construction) (runtime : Runtime Context Value Service)
    (context : Context) (payload : Option Value) : Outcome Context Service :=
  let (service, after) :=
    runtime.construct construction.call context (construction.argument payload)
  ⟨some service, construction.call.contextAfter context after, [construction.call]⟩

/-- What a choice comes to; without a construction nothing runs. -/
def outcomeOf (construction? : Option Construction) (runtime : Runtime Context Value Service)
    (context : Context) (payload : Option Value) : Outcome Context Service :=
  match construction? with
  | some construction => construction.outcome runtime context payload
  | none => ⟨none, context, []⟩

/-- Without a service no constructor ran, and the context is the one from before. -/
theorem calls_outcomeOf {construction? : Option Construction}
    {runtime : Runtime Context Value Service} {context : Context} {payload : Option Value}
    (hnone : (outcomeOf construction? runtime context payload).service = none) :
    outcomeOf construction? runtime context payload = ⟨none, context, []⟩ := by
  cases construction? with
  | none => rfl
  | some construction => exact nomatch hnone

end Construction

namespace DispatchRule

/-- The outcome that a rule decides on. -/
def outcome (rule : DispatchRule) (runtime : Runtime Context Value Service) (context : Context)
    (payload : Option Value) : Outcome Context Service :=
  Construction.outcomeOf (rule.construction? (payload.map runtime.typeOf)) runtime context payload

end DispatchRule

namespace DispatchTable

/-- The outcome of a request. -/
def outcome (table : DispatchTable) (runtime : Runtime Context Value Service) (type : ItemPath)
    (context : Context) (payload : Option Value) : Outcome Context Service :=
  Construction.outcomeOf (dispatch table type (payload.map runtime.typeOf)) runtime context payload

/-- The first rule for a type decides alone: the rules in front are for other types, and those
behind are not consulted. -/
theorem outcome_append_cons {front : DispatchTable} {rule : DispatchRule}
    (hfront : ∀ other ∈ front, other.target ≠ rule.target) (back : DispatchTable)
    (runtime : Runtime Context Value Service) (context : Context) (payload : Option Value) :
    outcome (front ++ rule :: back) runtime rule.target context payload =
      rule.outcome runtime context payload := by
  have hnone : front.find? (fun other => decide (other.target = rule.target)) = none := by
    rw [List.find?_eq_none]
    intro other hother
    simpa using hfront other hother
  have hfind : ruleFor? (front ++ rule :: back) rule.target = some rule := by
    rw [ruleFor?, List.find?_append, hnone, Option.none_or, List.find?_cons_of_pos]
    exact decide_eq_true rfl
  rw [outcome, dispatch, hfind, Option.bind_some, DispatchRule.outcome]

end DispatchTable

namespace Emission

/-! ## Guards -/

/-- The state at the beginning of the function. -/
def State.initial (context : Context) (payload : Option Value) : State Context Value Service :=
  ⟨context, .argument payload, none, []⟩

/-- A guard for another type is passed, and the state stays as it is. -/
theorem run_guardOf_of_ne (runtime : Runtime Context Value Service) {rule : DispatchRule}
    {type : ItemPath} (hne : rule.target ≠ type) (s : State Context Value Service) :
    (guardOf rule).run runtime type s = some (.goesOn s) := by
  have htext : type.text ≠ rule.target.text := by
    intro htext
    exact hne (congrArg ItemPath.mk htext.symm)
  rw [guardOf, Statement.run, if_neg htext]

/-- The end of a guard constructs from the context or returns nothing. -/
theorem runAll_contextBranch (runtime : Runtime Context Value Service) (requested : ItemPath)
    (target : ItemPath) (how? : Option ContextConstruction) (context : Context)
    (payload : Option Value) :
    runAll runtime requested (contextBranch target how?) (.initial context payload) =
      some (.returned
        (Construction.outcomeOf (how?.map (.fromContext target)) runtime context payload)) := by
  cases how? <;> rfl

/-- Without a payload its branch is passed, and the state stays as it is. -/
theorem run_payloadBranch_none (runtime : Runtime Context Value Service) (requested : ItemPath)
    (target : ItemPath) (how : PayloadConstruction) (context : Context) :
    (payloadBranch target how).run runtime requested (.initial context none) =
      some (.goesOn (.initial context none)) :=
  rfl

/-- A payload always decides: one of the right type is handed to the constructor, which may
change it only if it was bound as mutable, and any other one gives nothing. -/
theorem run_payloadBranch_some (runtime : Runtime Context Value Service) (requested : ItemPath)
    (target : ItemPath) (how : PayloadConstruction) (context : Context) (value : Value) :
    (payloadBranch target how).run runtime requested (.initial context (some value)) =
      some (.returned (Construction.outcomeOf
        (if runtime.typeOf value = how.payloadType then some (.fromPayload target how) else none)
        runtime context (some value))) := by
  obtain ⟨constructor, passing, payload, payloadType⟩ := how
  simp only [payloadBranch, State.initial, Statement.run, runAll]
  by_cases htype : runtime.typeOf value = payloadType
  · rw [if_pos htype, if_pos htype]
    cases payload <;> rfl
  · rw [if_neg htype, if_neg htype]
    rfl

/-- A guard for the requested type returns what its rule decides on. -/
theorem run_guardOf_self (runtime : Runtime Context Value Service) (rule : DispatchRule)
    (context : Context) (payload : Option Value) :
    (guardOf rule).run runtime rule.target (.initial context payload) =
      some (.returned (rule.outcome runtime context payload)) := by
  obtain ⟨target, contextOnly, parameterized⟩ := rule
  have hend := runAll_contextBranch runtime target target contextOnly context payload
  rw [guardOf, Statement.run, if_pos rfl]
  cases parameterized with
  | none =>
    rw [Option.map_none, Option.toList_none, List.nil_append, hend]
    rfl
  | some how =>
    rw [Option.map_some, Option.toList_some, List.singleton_append, runAll]
    cases payload with
    | none =>
      rw [run_payloadBranch_none]
      dsimp only
      rw [hend]
      rfl
    | some value =>
      rw [run_payloadBranch_some]
      rfl

/-! ## Programs -/

/-- A program returns at the guard of the first rule for the requested type, and falls through
if there is none. -/
theorem runAll_programOf (runtime : Runtime Context Value Service) (table : DispatchTable)
    (type : ItemPath) (context : Context) (payload : Option Value) :
    runAll runtime type (programOf table) (.initial context payload) =
      some (match DispatchTable.ruleFor? table type with
        | some rule => .returned (rule.outcome runtime context payload)
        | none => .goesOn (.initial context payload)) := by
  induction table with
  | nil => rfl
  | cons rule table ih =>
    rw [programOf, List.map_cons, runAll]
    by_cases htarget : rule.target = type
    · subst htarget
      have hfirst : DispatchTable.ruleFor? (rule :: table) rule.target = some rule :=
        List.find?_cons_of_pos (decide_eq_true rfl)
      rw [run_guardOf_self, hfirst]
    · have hlater : DispatchTable.ruleFor? (rule :: table) type =
          DispatchTable.ruleFor? table type :=
        List.find?_cons_of_neg fun hself => htarget (of_decide_eq_true hself)
      rw [run_guardOf_of_ne runtime htarget, hlater]
      exact ih

/-- The program of a table gives the outcome of the table. -/
theorem runBody_programOf (runtime : Runtime Context Value Service) (table : DispatchTable)
    (type : ItemPath) (context : Context) (payload : Option Value) :
    runBody runtime (programOf table) type context payload =
      some (table.outcome runtime type context payload) := by
  have hrun := runAll_programOf runtime table type context payload
  rw [State.initial] at hrun
  rw [runBody, hrun, DispatchTable.outcome, DispatchTable.dispatch]
  cases DispatchTable.ruleFor? table type <;> rfl

/-- The text of a plain table does what the table says for every request: the first rule for the
type decides, no later one is consulted, and without a service no constructor ran. Plain rules
exclude only names with line breaks, which no source text has and which could not be read back line
by line. -/
theorem execute?_source (settings : Settings) {table : DispatchTable}
    (htable : ∀ rule ∈ table, IsPlainRule rule) (runtime : Runtime Context Value Service)
    (type : ItemPath) (context : Context) (payload : Option Value) :
    execute? settings (table.source settings) runtime type context payload =
        some (table.outcome runtime type context payload) ∧
      (∀ front rule back, table = front ++ rule :: back → rule.target = type →
        (∀ other ∈ front, other.target ≠ type) →
        table.outcome runtime type context payload = rule.outcome runtime context payload) ∧
      ((table.outcome runtime type context payload).service = none →
        table.outcome runtime type context payload = ⟨none, context, []⟩) := by
  refine ⟨?_, ?_, Construction.calls_outcomeOf⟩
  · rw [execute?, body?_source settings htable, Option.bind_some, runBody_programOf]
  · rintro front rule back rfl rfl hfront
    exact DispatchTable.outcome_append_cons hfront back runtime context payload

/-- The constructors of the host, by their paths. -/
def hostRuntime : Runtime Host.Context Host.Payload Host.Service where
  typeOf := Host.Payload.type
  construct call context payload :=
    match call.callee, payload with
    | "crate::hos::services::acc::AccountService::new", _ => (Host.openAccount context).swap
    | "crate::hos::services::acc::AccountService::with_user", some (.userId user) =>
      (Host.accountOf context user, context)
    | "crate::hos::services::fs::FileSystemProxy::open", some (.string mount) =>
      (Host.openFileSystem context mount, context)
    | "crate::hos::services::fs::SaveDataReader::read", some (.bytes buffer) =>
      (Host.readSaveData buffer, context)
    | "crate::hos::services::time::StaticService::new", _ => (.staticService "new", context)
    | _, _ => (.internal, context)

/-- The file of the host opens the account of a user that comes as the payload. All rules of its
table are plain, and the context is passed on as it was. -/
theorem execute?_source_host :
    (∀ rule ∈ Host.table, IsPlainRule rule) ∧
      execute? {} (DispatchTable.source Host.table {}) hostRuntime
          (Host.typeNamed "AccountService") { processId := 1 } (some (.userId 7)) =
        some ⟨some (.account (some 7) 0), { processId := 1 },
          [⟨"crate::hos::services::acc::AccountService::with_user", .shared, some .value⟩]⟩ := by
  have hplain : ∀ rule ∈ Host.table, IsPlainRule rule := by decide
  exact ⟨hplain, (execute?_source {} hplain hostRuntime _ _ _).1.trans (by decide)⟩

end Emission

end ServiceDispatch
