import ServiceDispatch.Dispatch

/-!
# A service host

A process with a handful of services, each constructed through a dispatch table. The context
of a session counts the accounts opened in it; constructing an account without a payload is
the only request that changes it.
-/

namespace ServiceDispatch.Host

/-- The state handed to every constructor. -/
structure Context where
  processId : UInt64
  sessions : UInt32 := 0
deriving DecidableEq, Repr, Inhabited

/-- The names of the types that constructors take as payloads. -/
def payloadTypes : List String :=
  ["crate::hos::services::acc::types::UserId", "::std::string::String", "::std::vec::Vec<u8>"]

/-- A payload: a value that carries its own type. -/
inductive Payload where
  | userId (value : Nat)
  | wide (value : Nat)
  | string (value : String)
  | staticText (value : String)
  | bytes (value : List UInt8)
  | byte (value : UInt8)
  | word (value : UInt64)
  | unit
  /-- A value of any other type, of which only the type matters: no constructor takes it. -/
  | foreign (type : String) (other : type ∉ payloadTypes)
deriving DecidableEq, Repr

namespace Payload

/-- The name of the type of a payload. -/
def type : Payload → String
  | .userId _ => "crate::hos::services::acc::types::UserId"
  | .wide _ => "u128"
  | .string _ => "::std::string::String"
  | .staticText _ => "&'static str"
  | .bytes _ => "::std::vec::Vec<u8>"
  | .byte _ => "u8"
  | .word _ => "u64"
  | .unit => "()"
  | .foreign type _ => type

end Payload

/-- A constructed service. -/
inductive Service where
  | account (user : Option Nat) (session : UInt32)
  | fileSystemProxy (mount : String) (owner : Context)
  | saveDataReader (size : Nat)
  | internal
  | staticService (origin : String)
deriving DecidableEq, Repr

namespace Service

/-- The name under which a service is announced. -/
def name : Service → String
  | .account .. => "acc:u0"
  | .fileSystemProxy .. => "fsp-srv"
  | .saveDataReader _ => "fsp-ldr"
  | .internal => "internal"
  | .staticService _ => "time:u"

end Service

/-- Open an account session: the context counts it, and the session has the new count. -/
def openAccount (context : Context) : Context × Service :=
  let sessions := context.sessions + 1
  ({ context with sessions }, .account none sessions)

/-- The account of a user in the current session. -/
def accountOf (context : Context) (user : Nat) : Service := .account (some user) context.sessions

/-- A file system under a mount name, owned by a copy of the context. -/
def openFileSystem (context : Context) (mount : String) : Service :=
  .fileSystemProxy mount context

/-- A reader over at most four bytes of a buffer. -/
def readSaveData (buffer : List UInt8) : Service := .saveDataReader (buffer.take 4).length

/-- The dispatch table of the host. -/
def table : DispatchTable := [
  { target := ⟨"crate::hos::services::acc::AccountService"⟩
    contextOnly := some ⟨"new", .mutable⟩
    parameterized :=
      some ⟨"with_user", .shared, .value, "crate::hos::services::acc::types::UserId"⟩ },
  { target := ⟨"crate::hos::services::fs::FileSystemProxy"⟩
    contextOnly := none
    parameterized := some ⟨"open", .value, .value, "::std::string::String"⟩ },
  { target := ⟨"crate::hos::services::fs::SaveDataReader"⟩
    contextOnly := none
    parameterized := some ⟨"read", .shared, .mutable, "::std::vec::Vec<u8>"⟩ },
  { target := ⟨"crate::hos::services::internal::Internal"⟩
    contextOnly := some ⟨"new", .mutable⟩
    parameterized := none },
  { target := ⟨"crate::hos::services::time::StaticService"⟩
    contextOnly := some ⟨"new", .shared⟩
    parameterized := none }]

/-- The type that a short name stands for; a foreign name stands for itself. -/
def typeNamed (name : String) : ItemPath :=
  match name with
  | "AccountService" => ⟨"crate::hos::services::acc::AccountService"⟩
  | "FileSystemProxy" => ⟨"crate::hos::services::fs::FileSystemProxy"⟩
  | "SaveDataReader" => ⟨"crate::hos::services::fs::SaveDataReader"⟩
  | "Internal" => ⟨"crate::hos::services::internal::Internal"⟩
  | "StaticService" => ⟨"crate::hos::services::time::StaticService"⟩
  | other => ⟨other⟩

/-- Run a constructor call. -/
def construct (context : Context) (payload : Option Payload) :
    Construction → Context × Option Service
  | .fromContext target _ =>
    match target.terminal with
    | "AccountService" =>
      let (after, service) := openAccount context
      (after, some service)
    | "Internal" => (context, some .internal)
    | "StaticService" => (context, some (.staticService "new"))
    | _ => (context, none)
  | .fromPayload target _ =>
    match target.terminal, payload with
    | "AccountService", some (.userId user) => (context, some (accountOf context user))
    | "FileSystemProxy", some (.string mount) => (context, some (openFileSystem context mount))
    | "SaveDataReader", some (.bytes buffer) => (context, some (readSaveData buffer))
    | _, _ => (context, none)

/-- Answer a request for a type: the context afterwards, and the service if there is one. -/
def request (context : Context) (type : ItemPath) (payload : Option Payload) :
    Context × Option Service :=
  match table.dispatch type (payload.map Payload.type) with
  | some call => construct context payload call
  | none => (context, none)

/-- What a constructor that is called by its name returns. -/
inductive Built where
  | service (service : Service)
  | kernelObject (owner : UInt64)
  | systemClock (epoch : UInt64)
  | applicationManager (inner : UInt8)
deriving DecidableEq, Repr

/-- Call a constructor by its name, with a number where it takes one. -/
def build? (context : Context) (constructor : String) (value : UInt64) :
    Option (Context × Built) :=
  match constructor with
  | "AccountService::new" =>
    let (after, service) := openAccount context
    some (after, .service service)
  | "StaticService::new" => some (context, .service (.staticService "new"))
  | "StaticService::fallback" => some (context, .service (.staticService "fallback"))
  | "StaticService::between" => some (context, .service (.staticService "between"))
  | "KernelObject::new" => some (context, .kernelObject context.processId)
  | "SystemClock::new" => some (context, .systemClock value)
  | "ApplicationManager::new" => some (context, .applicationManager value.toUInt8)
  | _ => none

end ServiceDispatch.Host
