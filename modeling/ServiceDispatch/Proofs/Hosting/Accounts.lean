import ServiceDispatch.Proofs.Emission.Refinement
import ServiceDispatch.Proofs.Hosting.Crate
import ServiceDispatch.Proofs.Regeneration.Fixpoint

/-!
# The accounts of a session

A session answers requests one after the other with the function that is generated from the files
of the host. The context counts the requests that open an account session. No other request changes
it, and each is answered in the context that the openings before it have left.
-/

namespace ServiceDispatch.Host

open Emission (Call Runtime execute?)

/-! ## Requests -/

/-- A request: the type that is asked for, and the payload if there is one. -/
structure Request where
  type : ItemPath
  payload : Option Payload

/-- What a request comes to: the context afterwards, and the service if there is one. -/
structure Reply where
  context : Context
  service : Option Service
deriving DecidableEq

/-- The service of accounts. -/
def accountService : ItemPath := ⟨"crate::hos::services::acc::AccountService"⟩

/-- The service of file systems. -/
def fileSystemProxy : ItemPath := ⟨"crate::hos::services::fs::FileSystemProxy"⟩

/-- The service that reads a few bytes. -/
def saveDataReader : ItemPath := ⟨"crate::hos::services::fs::SaveDataReader"⟩

/-- The service in the private module. -/
def internal : ItemPath := ⟨"crate::hos::services::internal::Internal"⟩

/-- The service of clocks. -/
def staticService : ItemPath := ⟨"crate::hos::services::time::StaticService"⟩

/-- Whether a request opens an account session: it asks for an account without a payload. -/
def Request.opensSession (request : Request) : Bool :=
  request.type == accountService && request.payload.isNone

/-- The number of requests that open an account session. -/
def openings (requests : List Request) : Nat := requests.countP Request.opensSession

/-- The context that some requests leave of a fresh one. -/
def Context.after (processId : UInt64) (requests : List Request) : Context :=
  ⟨processId, .ofNat (openings requests)⟩

/-- The services that requests are answered with in a context. -/
inductive Serves (context : Context) : Request → Service → Prop where
  | opened : Serves context ⟨accountService, none⟩ (.account none (context.sessions + 1))
  | account (user : Nat) :
      Serves context ⟨accountService, some (.userId user)⟩ (.account (some user) context.sessions)
  | mounted (mount : String) :
      Serves context ⟨fileSystemProxy, some (.string mount)⟩ (.fileSystemProxy mount context)
  | read (bytes : List UInt8) :
      Serves context ⟨saveDataReader, some (.bytes bytes)⟩ (.saveDataReader (min 4 bytes.length))
  | internal (payload : Option Payload) : Serves context ⟨internal, payload⟩ .internal
  | static (payload : Option Payload) :
      Serves context ⟨staticService, payload⟩ (.staticService "new")

/-- What is claimed of the reply to a request on a fresh context after some other requests: the
context counts the openings, which have the numbers of their sessions, no other request changes
it, and a service is returned exactly if the request is served. -/
structure Accounts (processId : UInt64) (front : List Request) (request : Request)
    (reply : Reply) : Prop where
  process : reply.context.processId = processId
  sessions : reply.context.sessions.toNat = openings (front ++ [request])
  opened : request.opensSession → ∃ session, reply.service = some (.account none session) ∧
    session.toNat = openings front + 1
  unchanged : ¬ request.opensSession → reply.context = .after processId front
  served : ∀ service, reply.service = some service ↔
    Serves (.after processId front) request service

/-! ## Running the generated function -/

/-- What a constructor does that the generated function calls by its path. -/
def call? (context : Context) : String → Option Payload → Option (Service × Context)
  | "crate::hos::services::acc::AccountService::new", none => some (openAccount context).swap
  | "crate::hos::services::acc::AccountService::with_user", some (.userId user) =>
    some (accountOf context user, context)
  | "crate::hos::services::fs::FileSystemProxy::open", some (.string mount) =>
    some (openFileSystem context mount, context)
  | "crate::hos::services::fs::SaveDataReader::read", some (.bytes buffer) =>
    some (readSaveData buffer, context)
  | "crate::hos::services::internal::Internal::new", none => some (.internal, context)
  | "crate::hos::services::time::StaticService::new", none =>
    some (.staticService "new", context)
  | _, _ => none

/-- The host as a runtime. What calls of anything else do is left open. -/
def runtime (elsewhere : Call → Context → Option Payload → Service × Context) :
    Runtime Context Payload Service where
  typeOf := Payload.type
  construct call context payload :=
    (call? context call.callee payload).getD (elsewhere call context payload)

/-- The reply of the function in a generated text to a request. -/
def respond? (text : String) (elsewhere : Call → Context → Option Payload → Service × Context)
    (context : Context) (r : Request) : Option Reply :=
  (execute? {} text (runtime elsewhere) r.type context r.payload).map fun outcome =>
    ⟨outcome.context, outcome.service⟩

/-- Answer requests one after the other with the function in a generated text. -/
def serve? (text : String) (elsewhere : Call → Context → Option Payload → Service × Context) :
    Context → List Request → Option (List Reply)
  | _, [] => some []
  | context, r :: rest => do
    let reply ← respond? text elsewhere context r
    return reply :: (← serve? text elsewhere reply.context rest)

/-- The reply of the host to a request. -/
def Request.reply (context : Context) (r : Request) : Reply :=
  let (after, service) := request context r.type r.payload
  ⟨after, service⟩

/-- Answer requests one after the other with the table of the host. -/
def answers : Context → List Request → List Reply
  | _, [] => []
  | context, r :: rest => r.reply context :: answers (r.reply context).context rest

/-! ## The table -/

namespace Payload

/-- Only users have the type of a user among the payloads of the host. -/
theorem eq_userId {payload : Payload}
    (htype : payload.type = "crate::hos::services::acc::types::UserId") :
    ∃ user, payload = .userId user := by
  cases payload with
  | userId user => exact ⟨user, rfl⟩
  | foreign type other =>
    refine absurd ?_ other
    rw [show type = _ from htype]
    decide
  | _ => exact absurd htype (by simp [type])

/-- Only strings have the type of a string among the payloads of the host. -/
theorem eq_string {payload : Payload} (htype : payload.type = "::std::string::String") :
    ∃ text, payload = .string text := by
  cases payload with
  | string text => exact ⟨text, rfl⟩
  | foreign type other =>
    refine absurd ?_ other
    rw [show type = _ from htype]
    decide
  | _ => exact absurd htype (by simp [type])

/-- Only byte vectors have the type of a byte vector. -/
theorem eq_bytes {payload : Payload} (htype : payload.type = "::std::vec::Vec<u8>") :
    ∃ buffer, payload = .bytes buffer := by
  cases payload with
  | bytes buffer => exact ⟨buffer, rfl⟩
  | foreign type other =>
    refine absurd ?_ other
    rw [show type = _ from htype]
    decide
  | _ => exact absurd htype (by simp [type])

end Payload

/-- The constructions that requests lead to. -/
inductive Offers : Request → Construction → Prop where
  | opened : Offers ⟨accountService, none⟩ (.fromContext accountService ⟨"new", .mutable⟩)
  | account (user : Nat) : Offers ⟨accountService, some (.userId user)⟩
      (.fromPayload accountService
        ⟨"with_user", .shared, .value, "crate::hos::services::acc::types::UserId"⟩)
  | mounted (mount : String) : Offers ⟨fileSystemProxy, some (.string mount)⟩
      (.fromPayload fileSystemProxy ⟨"open", .value, .value, "::std::string::String"⟩)
  | read (bytes : List UInt8) : Offers ⟨saveDataReader, some (.bytes bytes)⟩
      (.fromPayload saveDataReader ⟨"read", .shared, .mutable, "::std::vec::Vec<u8>"⟩)
  | internal (payload : Option Payload) :
      Offers ⟨internal, payload⟩ (.fromContext internal ⟨"new", .mutable⟩)
  | static (payload : Option Payload) :
      Offers ⟨staticService, payload⟩ (.fromContext staticService ⟨"new", .shared⟩)

/-- A construction that is chosen is the one of a rule for the type. -/
theorem exists_rule_of_dispatch {table : DispatchTable} {type : ItemPath}
    {payloadType : Option String} {construction : Construction}
    (hdispatch : table.dispatch type payloadType = some construction) :
    ∃ rule ∈ table, rule.target = type ∧ rule.construction? payloadType = some construction := by
  obtain ⟨rule, hrule, hconstruction⟩ := Option.bind_eq_some_iff.mp hdispatch
  have htarget := List.find?_some hrule
  exact ⟨rule, List.mem_of_find?_eq_some hrule, of_decide_eq_true htarget, hconstruction⟩

/-- A payload construction is chosen for a payload of its type. -/
theorem eq_of_construction?_some {target : ItemPath} {contextOnly : Option ContextConstruction}
    {how : PayloadConstruction} {payload : Payload} {construction : Construction}
    (hchosen : (DispatchRule.mk target contextOnly (some how)).construction?
      (some payload.type) = some construction) :
    payload.type = how.payloadType ∧ construction = .fromPayload target how := by
  by_cases htype : payload.type = how.payloadType
  · exact ⟨htype, (Option.some.inj ((if_pos htype).symm.trans hchosen)).symm⟩
  · exact nomatch (if_neg htype).symm.trans hchosen

/-- The table leads each request to what it offers, and a request that it offers nothing for to
nothing. -/
theorem dispatch_table_iff {r : Request} {construction : Construction} :
    table.dispatch r.type (r.payload.map Payload.type) = some construction ↔
      Offers r construction := by
  obtain ⟨type, payload⟩ := r
  constructor
  · intro hdispatch
    obtain ⟨rule, hrule, rfl, hchosen⟩ := exists_rule_of_dispatch hdispatch
    simp only [table, List.mem_cons, List.not_mem_nil, or_false] at hrule
    rcases hrule with rfl | rfl | rfl | rfl | rfl
    · cases payload with
      | none =>
        obtain rfl := Option.some.inj hchosen
        exact .opened
      | some payload =>
        obtain ⟨htype, rfl⟩ := eq_of_construction?_some hchosen
        obtain ⟨user, rfl⟩ := Payload.eq_userId htype
        exact .account user
    · cases payload with
      | none => cases hchosen
      | some payload =>
        obtain ⟨htype, rfl⟩ := eq_of_construction?_some hchosen
        obtain ⟨mount, rfl⟩ := Payload.eq_string htype
        exact .mounted mount
    · cases payload with
      | none => cases hchosen
      | some payload =>
        obtain ⟨htype, rfl⟩ := eq_of_construction?_some hchosen
        obtain ⟨buffer, rfl⟩ := Payload.eq_bytes htype
        exact .read buffer
    · obtain rfl : construction = _ := by cases payload <;> exact (Option.some.inj hchosen).symm
      exact .internal payload
    · obtain rfl : construction = _ := by cases payload <;> exact (Option.some.inj hchosen).symm
      exact .static payload
  · intro hoffers
    cases hoffers with
    | internal payload => cases payload <;> rfl
    | static payload => cases payload <;> rfl
    | _ => rfl

/-! ## Single requests -/

/-- A request that opens a session asks for an account without a payload. -/
theorem Request.eq_of_opensSession {r : Request} (hopens : r.opensSession) :
    r = ⟨accountService, none⟩ := by
  obtain ⟨type, payload⟩ := r
  obtain ⟨htype, hpayload⟩ := (Bool.and_eq_true _ _).mp hopens
  obtain rfl := eq_of_beq htype
  obtain rfl := Option.isNone_iff_eq_none.mp hpayload
  rfl

/-- A request that is offered nothing leaves the context as it is. -/
theorem Request.reply_of_dispatch_eq_none {context : Context} {r : Request}
    (hdispatch : table.dispatch r.type (r.payload.map Payload.type) = none) :
    r.reply context = ⟨context, none⟩ := by
  rw [reply, request, hdispatch]

/-- A request that is offered a construction gets what this constructs. -/
theorem Request.reply_of_offers {context : Context} {r : Request} {construction : Construction}
    (hoffers : Offers r construction) : r.reply context =
      ⟨(construct context r.payload construction).1,
        (construct context r.payload construction).2⟩ := by
  rw [reply, request, dispatch_table_iff.mpr hoffers]

/-- A request is answered with a service exactly if it is served. -/
theorem Request.service_reply_iff {context : Context} {r : Request} {service : Service} :
    (r.reply context).service = some service ↔ Serves context r service := by
  have hread (bytes : List UInt8) :
      readSaveData bytes = .saveDataReader (min 4 bytes.length) := by
    rw [readSaveData, List.length_take]
  constructor
  · cases hdispatch : table.dispatch r.type (r.payload.map Payload.type) with
    | none =>
      rw [reply_of_dispatch_eq_none hdispatch]
      exact nofun
    | some construction =>
      have hoffers := dispatch_table_iff.mp hdispatch
      rw [reply_of_offers hoffers]
      intro hservice
      cases hoffers with
      | opened =>
        obtain rfl := Option.some.inj hservice
        exact .opened
      | account user =>
        obtain rfl := Option.some.inj hservice
        exact .account user
      | mounted mount =>
        obtain rfl := Option.some.inj hservice
        exact .mounted mount
      | read bytes =>
        obtain rfl := (hread bytes).symm.trans (Option.some.inj hservice)
        exact .read bytes
      | internal payload =>
        obtain rfl := Option.some.inj hservice
        exact .internal payload
      | static payload =>
        obtain rfl := Option.some.inj hservice
        exact .static payload
  · intro hserves
    cases hserves with
    | read bytes => exact congrArg some (hread bytes)
    | internal payload => cases payload <;> rfl
    | static payload => cases payload <;> rfl
    | _ => rfl

/-- Only a request that opens a session changes the context, which counts it. -/
theorem Request.context_reply (context : Context) (r : Request) : (r.reply context).context =
    if r.opensSession then { context with sessions := context.sessions + 1 } else context := by
  cases hdispatch : table.dispatch r.type (r.payload.map Payload.type) with
  | none =>
    rw [reply_of_dispatch_eq_none hdispatch, if_neg]
    intro hopens
    obtain rfl := eq_of_opensSession hopens
    cases hdispatch.symm.trans (dispatch_table_iff.mpr .opened)
  | some construction =>
    have hoffers := dispatch_table_iff.mp hdispatch
    rw [reply_of_offers hoffers]
    cases hoffers <;> rfl

/-- The generated function replies as the host does, with what calls of anything else do left open.
-/
theorem respond?_source (elsewhere : Call → Context → Option Payload → Service × Context)
    (context : Context) (r : Request) :
    respond? (table.source {}) elsewhere context r = some (r.reply context) := by
  have hplain : ∀ rule ∈ table, Emission.IsPlainRule rule := by decide
  rw [respond?, execute?, Emission.body?_source {} hplain, Option.bind_some,
    Emission.runBody_programOf, Option.map_some, Option.some.injEq, DispatchTable.outcome, runtime]
  cases hdispatch : table.dispatch r.type (r.payload.map Payload.type) with
  | none =>
    rw [Request.reply_of_dispatch_eq_none hdispatch]
    rfl
  | some construction =>
    have hoffers := dispatch_table_iff.mp hdispatch
    rw [Request.reply_of_offers hoffers]
    cases hoffers <;> rfl

/-! ## Runs -/

/-- A run of the generated function gives the replies of the host. -/
theorem serve?_source (elsewhere : Call → Context → Option Payload → Service × Context)
    (context : Context) (requests : List Request) :
    serve? (table.source {}) elsewhere context requests = some (answers context requests) := by
  induction requests generalizing context with
  | nil => rfl
  | cons r rest ih =>
    rw [serve?, respond?_source, Option.bind_eq_bind, Option.bind_some, ih]
    rfl

/-- Each request gets a reply, and there are no others. -/
theorem length_answers (context : Context) (requests : List Request) :
    (answers context requests).length = requests.length := by
  induction requests generalizing context with
  | nil => rfl
  | cons r rest ih => rw [answers, List.length_cons, List.length_cons, ih]

/-- One more request is counted if it opens a session. -/
theorem openings_concat (requests : List Request) (r : Request) :
    openings (requests ++ [r]) = openings requests + if r.opensSession then 1 else 0 := by
  rw [openings, openings, List.countP_append, List.countP_singleton]

/-- The context after one more request is what its reply leaves. -/
theorem Context.after_concat (processId : UInt64) (requests : List Request) (r : Request) :
    Context.after processId (requests ++ [r]) =
      (r.reply (Context.after processId requests)).context := by
  rw [Request.context_reply, Context.after, openings_concat]
  cases r.opensSession
  · rfl
  · rw [if_pos rfl, if_pos rfl, UInt32.ofNat_add]
    rfl

/-- The reply to a request is given in the context that the requests before it leave. -/
theorem getElem?_answers (processId : UInt64) (before front : List Request) (r : Request)
    (back : List Request) :
    (answers (.after processId before) (front ++ r :: back))[front.length]? =
      some (r.reply (.after processId (before ++ front))) := by
  induction front generalizing before with
  | nil => rw [List.append_nil]; rfl
  | cons first front ih =>
    rw [List.cons_append, answers, List.length_cons, List.getElem?_cons_succ,
      ← Context.after_concat, ih, List.append_assoc, List.singleton_append]

/-- A request that opens a session increases the count, by one and up to overflow. -/
theorem sessions_after_concat (processId : UInt64) (front : List Request) {r : Request}
    (hopens : r.opensSession) : (Context.after processId (front ++ [r])).sessions =
      (Context.after processId front).sessions + 1 := by
  rw [Context.after_concat, Request.context_reply, if_pos hopens]

/-- The count is the number of openings as long as it does not wrap around. -/
theorem toNat_sessions_after (processId : UInt64) {requests : List Request}
    (hbound : openings requests < 2 ^ 32) :
    (Context.after processId requests).sessions.toNat = openings requests :=
  UInt32.toNat_ofNat_of_lt' hbound

/-- The reply to a request in the context that some requests leave accounts for all of them. -/
theorem accounts_reply (processId : UInt64) {front : List Request} {r : Request}
    (hbound : openings (front ++ [r]) < 2 ^ 32) :
    Accounts processId front r (r.reply (.after processId front)) where
  process := by rw [← Context.after_concat, Context.after]
  sessions := by rw [← Context.after_concat, toNat_sessions_after processId hbound]
  opened := by
    intro hopens
    have hcount : (Context.after processId front).sessions + 1 =
        (Context.after processId (front ++ [r])).sessions :=
      (sessions_after_concat processId front hopens).symm
    refine ⟨(Context.after processId front).sessions + 1, ?_, ?_⟩
    · obtain rfl := Request.eq_of_opensSession hopens
      exact Request.service_reply_iff.mpr .opened
    · rw [hcount, toNat_sessions_after processId hbound, openings_concat, if_pos hopens]
  unchanged := by
    intro hopens
    rw [Request.context_reply, if_neg hopens]
  served _ := Request.service_reply_iff

/-- The function that is generated from the crate of the host answers every run on a fresh context
with fewer openings than a count can hold, and each reply accounts for the requests up to it. What
calls of anything but the constructors of the host do is left open, and no reply depends on it. -/
theorem accounts_of_serve? (elsewhere : Call → Context → Option Payload → Service × Context)
    (processId : UInt64) {requests : List Request} (hbound : openings requests < 2 ^ 32) :
    ∃ artifact, Artifact.ofCrate {} crate ⟨"src"⟩ = .ok artifact ∧
      ∃ replies, serve? artifact.source elsewhere { processId } requests = some replies ∧
        replies.length = requests.length ∧
        ∀ front r back, requests = front ++ r :: back →
          ∃ reply, replies[front.length]? = some reply ∧ Accounts processId front r reply := by
  obtain ⟨artifact, hartifact, htable⟩ := exists_ofCrate_crate
  obtain ⟨feed, -, hfeed⟩ := Results.bind_eq_ok_iff.mp hartifact
  refine ⟨artifact, hartifact, answers { processId } requests, ?_, ?_, ?_⟩
  · rw [Artifact.source_of_ofFeed hfeed, htable, serve?_source]
  · exact length_answers _ _
  · rintro front r back rfl
    have hfront : (front ++ [r]) <+: (front ++ r :: back) := ⟨back, List.append_assoc ..⟩
    have hreply := getElem?_answers processId [] front r back
    exact ⟨_, hreply, accounts_reply processId (hfront.sublist.countP_le.trans_lt hbound)⟩

/-- A run that opens two accounts, with a file system and a payload of the wrong type between
them. -/
theorem accounts_of_serve?_accounts :
    let requests : List Request := [⟨accountService, none⟩, ⟨fileSystemProxy, some (.string "sd")⟩,
      ⟨accountService, some .unit⟩, ⟨accountService, none⟩]
    openings requests < 2 ^ 32 ∧ ∃ artifact, Artifact.ofCrate {} crate ⟨"src"⟩ = .ok artifact ∧
      ∃ replies, serve? artifact.source (fun _ context _ => (.internal, context))
          { processId := 7 } requests = some replies ∧
        replies.length = requests.length ∧
        ∀ front r back, requests = front ++ r :: back →
          ∃ reply, replies[front.length]? = some reply ∧ Accounts 7 front r reply := by
  have hbound : openings [⟨accountService, none⟩, ⟨fileSystemProxy, some (.string "sd")⟩,
      ⟨accountService, some .unit⟩, ⟨accountService, none⟩] < 2 ^ 32 := by decide
  exact ⟨hbound, accounts_of_serve? _ 7 hbound⟩

end ServiceDispatch.Host
