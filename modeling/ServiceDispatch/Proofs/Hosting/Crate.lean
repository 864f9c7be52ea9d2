import ServiceDispatch.CrateScan
import ServiceDispatch.Host
import ServiceDispatch.Proofs.Files.Walking

/-!
# The crate of the host

The files of the host, and the dispatch table that a pass over them gives. It is the table by which
the host answers requests: of the types in the crate five are dispatched to, each by the first of
its constructors that has a shape and takes the context.
-/

namespace ServiceDispatch.Host

open Files (FilePath FileNode FileTree)

/-! ## Files -/

/-- The file with a service outside of the namespace. -/
def kernelText : String := "use super::ServiceCtx;
use ipcgen_macros::service;

/// Marked, but lives outside `hos::services` and is never dispatched.
#[service(\"kernel\")]
#[derive(Debug)]
pub struct KernelObject \x7b
    pub owner: u64,
\x7d

impl KernelObject \x7b
    pub fn new(context: &mut ServiceCtx) -> Self \x7b
        Self \x7b
            owner: context.process_id,
        \x7d
    \x7d
\x7d
"

/-- The file with the context and the trait of services. -/
def hosText : String := "use std::any::Any;

pub mod kernel;
pub mod services;

/// Per-session state handed to every service constructor
#[derive(Debug, Clone, Default, PartialEq)]
pub struct ServiceCtx \x7b
    pub process_id: u64,
    pub sessions: u32,
\x7d

impl ServiceCtx \x7b
    pub fn new(process_id: u64) -> Self \x7b
        Self \x7b
            process_id,
            sessions: 0,
        \x7d
    \x7d
\x7d

pub trait IpcService \x7b
    fn name(&self) -> &str;

    fn as_any(&self) -> &dyn Any;
\x7d
"

/-- The file with the account services. -/
def accountText : String := "pub mod types;

use self::types::UserId;
use crate::hos::\x7bIpcService, ServiceCtx\x7d;
use ipcgen_macros::service;
use std::any::Any;

#[service(\"acc:u0\")]
#[derive(Debug)]
pub struct AccountService \x7b
    pub user: Option<UserId>,
    pub session: u32,
\x7d

impl AccountService \x7b
    pub fn new(context: &mut ServiceCtx) -> Self \x7b
        context.sessions += 1;
        Self \x7b
            user: None,
            session: context.sessions,
        \x7d
    \x7d

    pub fn with_user(context: &ServiceCtx, user: UserId) -> Self \x7b
        Self \x7b
            user: Some(user),
            session: context.sessions,
        \x7d
    \x7d
\x7d

impl IpcService for AccountService \x7b
    fn name(&self) -> &str \x7b
        \"acc:u0\"
    \x7d

    fn as_any(&self) -> &dyn Any \x7b
        self
    \x7d
\x7d

/// Generic services cannot be named by a `TypeId` guard.
#[service(\"acc:aa\")]
pub struct ApplicationManager<T> \x7b
    pub inner: T,
\x7d

impl<T> ApplicationManager<T> \x7b
    pub fn new(_context: &mut ServiceCtx, inner: T) -> Self \x7b
        Self \x7b inner \x7d
    \x7d
\x7d
"

/-- The file with the payload type of an account. -/
def userIdText : String := "#[derive(Debug, Clone, Copy, PartialEq, Eq)]
pub struct UserId(pub u128);
"

/-- The file with the services of files. -/
def fileSystemText : String := "use crate::hos::\x7bIpcService, ServiceCtx\x7d;
use ipcgen_macros::service;
use std::any::Any;

/// Only constructible with a mount name.
#[service(\"fsp-srv\", 8)]
#[derive(Debug)]
pub struct FileSystemProxy \x7b
    pub mount: String,
    pub owner: ServiceCtx,
\x7d

impl FileSystemProxy \x7b
    pub fn open(context: ServiceCtx, mount: String) -> Self \x7b
        Self \x7b
            mount,
            owner: context,
        \x7d
    \x7d
\x7d

impl IpcService for FileSystemProxy \x7b
    fn name(&self) -> &str \x7b
        \"fsp-srv\"
    \x7d

    fn as_any(&self) -> &dyn Any \x7b
        self
    \x7d
\x7d

#[service(\"fsp-ldr\")]
#[derive(Debug)]
pub struct SaveDataReader \x7b
    pub size: usize,
\x7d

impl SaveDataReader \x7b
    pub fn read(_context: &ServiceCtx, buffer: &mut Vec<u8>) -> Self \x7b
        buffer.truncate(4);
        Self \x7b size: buffer.len() \x7d
    \x7d
\x7d

impl IpcService for SaveDataReader \x7b
    fn name(&self) -> &str \x7b
        \"fsp-ldr\"
    \x7d

    fn as_any(&self) -> &dyn Any \x7b
        self
    \x7d
\x7d

/// No one- or two-argument constructor, so it never gets a rule.
#[service(\"fsp-pr\")]
pub struct ProgramRegistry;

impl ProgramRegistry \x7b
    pub fn new(_context: &ServiceCtx, _program: u64, _storage: u8) -> Self \x7b
        ProgramRegistry
    \x7d
\x7d
"

/-- The file of a private module that the generated function can see. -/
def internalText : String := "use crate::hos::\x7bIpcService, ServiceCtx\x7d;
use ipcgen_macros::service;
use std::any::Any;

/// Lives in a private module that the dispatcher's parent can still see.
#[service(\"internal\")]
pub struct Internal;

impl Internal \x7b
    pub fn new(_context: &mut ServiceCtx) -> Self \x7b
        Internal
    \x7d
\x7d

impl IpcService for Internal \x7b
    fn name(&self) -> &str \x7b
        \"internal\"
    \x7d

    fn as_any(&self) -> &dyn Any \x7b
        self
    \x7d
\x7d

#[cfg(test)]
mod tests \x7b
    use super::*;
    use crate::hos::services::sm::UserInterface;
    use std::any::TypeId;

    #[test]
    fn test_sibling_private_module_is_dispatched() \x7b
        let mut context = ServiceCtx::new(1);
        let service =
            UserInterface::get_service_instance(TypeId::of::<Internal>(), &mut context, None)
                .unwrap();
        assert_eq!(service.name(), \"internal\");
        assert!(service.as_any().is::<Internal>());
    \x7d
\x7d
"

/-- The file with the modules of the services. -/
def servicesText : String := "pub mod acc;
pub mod fs;
pub mod sm;
pub mod time;

mod internal;
"

/-- The file that includes the generated function. -/
def interfaceText : String := "use crate::hos::\x7bIpcService, ServiceCtx\x7d;
use std::any::\x7bAny, TypeId\x7d;

/// Service manager front end. `get_service_instance` is generated at build
/// time from every dispatchable service under `hos::services`.
pub struct UserInterface;

include!(concat!(env!(\"OUT_DIR\"), \"/user_interface.rs\"));

impl UserInterface \x7b
    /// Typed wrapper over the generated dispatch function
    pub fn get_service<T: Any>(
        context: &mut ServiceCtx,
        parameter: Option<Box<dyn Any>>,
    ) -> Option<Box<dyn IpcService>> \x7b
        Self::get_service_instance(TypeId::of::<T>(), context, parameter)
    \x7d
\x7d
"

/-- The file with the services of clocks, most of which are not dispatched to. -/
def timeText : String := "use crate::hos::\x7bIpcService, ServiceCtx\x7d;
use ipcgen_macros::service;
use std::any::Any;

#[service(\"time:u\")]
#[derive(Debug)]
pub struct StaticService \x7b
    pub origin: &'static str,
\x7d

impl StaticService \x7b
    pub fn new(_context: &ServiceCtx) -> Self \x7b
        Self \x7b origin: \"new\" \x7d
    \x7d

    /// Same shape as `new`; declared second, so never picked.
    pub fn fallback(_context: &ServiceCtx) -> Self \x7b
        Self \x7b origin: \"fallback\" \x7d
    \x7d

    /// Two parameters but no context, so not a payload constructor.
    pub fn between(_start: u64, _end: u64) -> Self \x7b
        Self \x7b origin: \"between\" \x7d
    \x7d
\x7d

impl IpcService for StaticService \x7b
    fn name(&self) -> &str \x7b
        \"time:u\"
    \x7d

    fn as_any(&self) -> &dyn Any \x7b
        self
    \x7d
\x7d

/// Has a constructor, but no marker.
pub struct SteadyClock;

impl SteadyClock \x7b
    pub fn new(_context: &ServiceCtx) -> Self \x7b
        SteadyClock
    \x7d
\x7d

/// Marked, but its constructor does not take the service context.
#[service(\"time:s\")]
pub struct SystemClock \x7b
    pub epoch: u64,
\x7d

impl SystemClock \x7b
    pub fn new(epoch: u64) -> Self \x7b
        Self \x7b epoch \x7d
    \x7d
\x7d

#[allow(dead_code)]
mod detail \x7b
    use crate::hos::ServiceCtx;
    use ipcgen_macros::service;

    /// Private to `time`, so the dispatcher cannot name it.
    #[service(\"time:p\")]
    pub struct Hidden;

    impl Hidden \x7b
        pub fn new(_context: &ServiceCtx) -> Self \x7b
            Hidden
        \x7d
    \x7d
\x7d

#[cfg(test)]
mod tests \x7b
    use super::*;
    use crate::hos::services::sm::UserInterface;
    use std::any::TypeId;

    #[test]
    fn test_service_in_private_module_is_not_dispatched() \x7b
        let mut context = ServiceCtx::new(1);
        let hidden = TypeId::of::<detail::Hidden>();
        assert!(UserInterface::get_service_instance(hidden, &mut context, None).is_none());
    \x7d

    #[test]
    fn test_constructor_without_context_is_not_a_payload_shape() \x7b
        let mut context = ServiceCtx::new(1);
        let parameter: Box<dyn Any> = Box::new(3u64);
        let service =
            UserInterface::get_service::<StaticService>(&mut context, Some(parameter)).unwrap();
        let service = service.as_any().downcast_ref::<StaticService>().unwrap();
        assert_eq!(service.origin, \"new\");
        assert_eq!(StaticService::between(1, 2).origin, \"between\");
    \x7d
\x7d
"

/-- The root of the crate. -/
def libraryText : String := "//! Demo service host
//!
//! A minimal process with a handful of IPC services. `build.rs` generates
//! `UserInterface::get_service_instance` from the services declared under
//! `hos::services`.

pub mod hos;
"

/-- The files of the host. -/
def crate : FileTree where
  nodes :=
    [(["src"], .directory),
      (["src", "hos"], .directory),
      (["src", "hos", "kernel.rs"], .file (.text kernelText)),
      (["src", "hos", "mod.rs"], .file (.text hosText)),
      (["src", "hos", "services"], .directory),
      (["src", "hos", "services", "acc"], .directory),
      (["src", "hos", "services", "acc", "mod.rs"], .file (.text accountText)),
      (["src", "hos", "services", "acc", "types.rs"], .file (.text userIdText)),
      (["src", "hos", "services", "fs.rs"], .file (.text fileSystemText)),
      (["src", "hos", "services", "internal.rs"], .file (.text internalText)),
      (["src", "hos", "services", "mod.rs"], .file (.text servicesText)),
      (["src", "hos", "services", "sm.rs"], .file (.text interfaceText)),
      (["src", "hos", "services", "time.rs"], .file (.text timeText)),
      (["src", "lib.rs"], .file (.text libraryText))]

/-- A file of the crate with the module that it holds. -/
structure ModuleFile where
  module : ItemPath
  path : FilePath
  text : String

namespace ModuleFile

/-- The file as a scan meets it. -/
def entry (file : ModuleFile) : ItemPath × FilePath × FileNode :=
  (file.module, file.path, .file (.text file.text))

/-- The source in the file, if it can be read. -/
def source? (file : ModuleFile) : Option Source := Source.ofText? file.module file.text

end ModuleFile

/-- The files with modules, in the order of a scan. -/
def modules : List ModuleFile :=
  [⟨⟨"crate::hos::kernel"⟩, ⟨"src/hos/kernel.rs"⟩, kernelText⟩,
    ⟨⟨"crate::hos"⟩, ⟨"src/hos/mod.rs"⟩, hosText⟩,
    ⟨⟨"crate::hos::services::acc"⟩, ⟨"src/hos/services/acc/mod.rs"⟩, accountText⟩,
    ⟨⟨"crate::hos::services::acc::types"⟩, ⟨"src/hos/services/acc/types.rs"⟩, userIdText⟩,
    ⟨⟨"crate::hos::services::fs"⟩, ⟨"src/hos/services/fs.rs"⟩, fileSystemText⟩,
    ⟨⟨"crate::hos::services::internal"⟩, ⟨"src/hos/services/internal.rs"⟩, internalText⟩,
    ⟨⟨"crate::hos::services"⟩, ⟨"src/hos/services/mod.rs"⟩, servicesText⟩,
    ⟨⟨"crate::hos::services::sm"⟩, ⟨"src/hos/services/sm.rs"⟩, interfaceText⟩,
    ⟨⟨"crate::hos::services::time"⟩, ⟨"src/hos/services/time.rs"⟩, timeText⟩,
    ⟨.root, ⟨"src/lib.rs"⟩, libraryText⟩]

/-! ## Scanning the files -/

/-- The source directory is one. -/
theorem locate?_crate : crate.locate? ⟨"src"⟩ = some ["src"] := rfl

/-- A walk through the files meets them in the order in which they are listed. -/
theorem walk_crate : crate.walk ⟨"src"⟩ =
    crate.nodes.map fun (location, node) => (⟨"/".intercalate location⟩, node) := by
  have hlocations : (crate.nodes.map Prod.fst).Pairwise fun a b =>
      (FileTree.comesBefore a b : Prop) := by decide
  have hsorted : crate.nodes.Pairwise fun a b => FileTree.comesBefore a.1 b.1 :=
    List.pairwise_map.mp hlocations
  rw [FileTree.walk, locate?_crate]
  simp only [FileTree.below_of_pairwise hsorted]
  rfl

/-- A scan meets the files with modules, in the order of their paths. -/
theorem filesOf_crate : Source.filesOf crate ⟨"src"⟩ = modules.map ModuleFile.entry := by
  have hdirectories : ∀ path ∈ ["src", "src/hos", "src/hos/services", "src/hos/services/acc"],
      (FilePath.mk path).extension? ≠ some "rs" := by decide
  have hfiles : ∀ file ∈ modules, file.path.extension? = some "rs" ∧
      file.path.components ≠ (FilePath.join ⟨"src"⟩ "main.rs").components ∧
      Files.modulePath? ⟨"src"⟩ file.path = some file.module := by decide
  simp only [modules, List.forall_mem_cons, List.not_mem_nil, false_implies, implies_true,
    and_true] at hdirectories hfiles
  rw [Source.filesOf, walk_crate]
  simp [crate, modules, ModuleFile.entry, hdirectories, hfiles]

/-- Files that can all be read make the sources, one for each of them. -/
theorem mapM_ofFile {files : List ModuleFile} {sources : List Source}
    (hsources : files.mapM ModuleFile.source? = some sources) :
    (files.map ModuleFile.entry).mapM (fun file => Source.ofFile file.1 file.2.1 file.2.2) =
      .ok sources := by
  induction files generalizing sources with
  | nil =>
    obtain rfl := Option.some.inj hsources
    rfl
  | cons file files ih =>
    rw [List.mapM_cons] at hsources
    obtain ⟨source, hsource, hsources⟩ := Option.bind_eq_some_iff.mp hsources
    obtain ⟨rest, hrest, hsources⟩ := Option.bind_eq_some_iff.mp hsources
    obtain rfl := Option.some.inj hsources
    have hread : Source.ofFile file.entry.1 file.entry.2.1 file.entry.2.2 = .ok source := by
      rw [ModuleFile.source?] at hsource
      simp only [ModuleFile.entry, Source.ofFile, hsource]
    rw [List.map_cons, List.mapM_cons, hread, ih hrest]
    rfl

/-! ## What the files declare -/

/-- The type that a single name stands for. -/
def named (name : String) : Ty := .path false [.mk name .none]

/-- The name that a type is, if it is a single one. -/
def nameOf? : Ty → Option String
  | .path false [.mk name .none] => some name
  | _ => none

/-- A type that is a single name is determined by it. -/
theorem eq_named {type : Ty} {name : String} (htype : nameOf? type = some name) :
    type = named name := by
  unfold nameOf? at htype
  split at htype
  · rw [Option.some.inj htype, named]
  · exact nomatch htype

/-- Whether a declaration is found to be another one. Blocks are compared only if their type is a
single name, as it is for all blocks of the host. -/
def isSame : Declaration → Declaration → Bool
  | .module path visibleIn, .module path' visibleIn' => path == path' && visibleIn == visibleIn'
  | .type ⟨path, visibleIn, isAbstract, markers⟩,
      .type ⟨path', visibleIn', isAbstract', markers'⟩ =>
    path == path' && visibleIn == visibleIn' && isAbstract == isAbstract' && markers == markers'
  | .name path, .name path' => path == path'
  | .binding module binding, .binding module' binding' => module == module' && binding == binding'
  | .impl ⟨scope, selfType, constructors⟩, .impl ⟨scope', selfType', constructors'⟩ =>
    scope == scope' && constructors == constructors' && (nameOf? selfType).isSome &&
      nameOf? selfType == nameOf? selfType'
  | _, _ => false

/-- Declarations that are found to be the same are, of whichever kind they are. -/
theorem eq_of_isSame {declaration other : Declaration} (hsame : isSame declaration other) :
    declaration = other := by
  unfold isSame at hsame
  split at hsame
  case h_5 scope selfType constructors scope' selfType' constructors' =>
    simp only [Bool.and_eq_true, beq_iff_eq, Option.isSome_iff_exists] at hsame
    obtain ⟨⟨⟨rfl, rfl⟩, name, hname⟩, hnames⟩ := hsame
    rw [eq_named hname, eq_named (hnames.symm.trans hname)]
  all_goals simp_all

/-- Whether declarations are found to be other ones. -/
def areSame (declarations others : List Declaration) : Bool :=
  declarations.length == others.length && (declarations.zip others).all fun (d, e) => isSame d e

/-- Lists of declarations that are found to be the same are. -/
theorem eq_of_areSame {declarations others : List Declaration}
    (hsame : areSame declarations others) : declarations = others := by
  obtain ⟨hlength, hall⟩ := Bool.and_eq_true_iff.mp hsame
  refine List.ext_getElem (beq_iff_eq.mp hlength) fun i hi hi' => eq_of_isSame ?_
  have hi'' : i < (declarations.zip others).length := by
    rw [List.length_zip]
    omega
  have := List.all_eq_true.mp hall _ (List.getElem_mem hi'')
  rwa [List.getElem_zip] at this

/-- Whether a file can be read and declares something. -/
def ModuleFile.Declares (file : ModuleFile) (declarations : List Declaration) : Prop :=
  ∃ source, file.source? = some source ∧ source.declarations (.ofSettings {}) = declarations

/-- The source of a text is read from its characters. -/
theorem ofText?_ofList (module : ItemPath) (cs : List Char) :
    Source.ofText? module (String.ofList cs) =
      ((Lexer.fileTokens? cs).bind (Grammar.readAll? Grammar.file)).map (⟨module, ·⟩) := by
  rw [Source.ofText?, Item.ofFile?, String.toList_ofList]
  rfl

/-- A file that is found to declare something does: the check compares all its declarations in their
order. -/
theorem declares_of_areSame {module : ItemPath} {path : FilePath} {text : String}
    {declarations : List Declaration}
    (hsame : (Source.ofText? module text).any fun source =>
      areSame (source.declarations (.ofSettings {})) declarations) :
    ModuleFile.Declares ⟨module, path, text⟩ declarations := by
  obtain ⟨source, hsource, hsame⟩ := (Option.any_eq_true _ _).mp hsame
  exact ⟨source, hsource, eq_of_areSame hsame⟩

/-- A module with the modules around it, all visible everywhere. -/
def modulesTo (module : ItemPath) : List Declaration :=
  (module.ancestors ++ [module]).map (.module · .root)

/-- Paths that a module imports under their last names. -/
def imports (module : ItemPath) (paths : List (List String)) : List Declaration :=
  paths.map fun names => .binding module (.named (names.getLast?.getD "") ⟨false, names⟩)

/-- A type that is visible everywhere, with its marker if it has one. -/
def declared (module : ItemPath) (name : String) (marker? : Option Marker) : Declaration :=
  .type ⟨module.join name, .root, false, marker?.toList⟩

/-- A block of constructors, with the types of their parameters. -/
def block (module : ItemPath) (name : String) (constructors : List (String × List Ty)) :
    Declaration :=
  .impl ⟨module, named name,
    constructors.map fun (name, params) => ⟨name, params.map (Parameter.ofTy · module)⟩⟩

/-- The context by shared reference. -/
def shared : Ty := .reference none false (named "ServiceCtx")

/-- The context by mutable reference. -/
def mutable : Ty := .reference none true (named "ServiceCtx")

/-- What the files of the crate declare, in the order of a scan. -/
def declarations : List (List Declaration) :=
  let hos : ItemPath := ⟨"crate::hos"⟩
  let kernel : ItemPath := ⟨"crate::hos::kernel"⟩
  let services : ItemPath := ⟨"crate::hos::services"⟩
  let acc : ItemPath := ⟨"crate::hos::services::acc"⟩
  let types : ItemPath := ⟨"crate::hos::services::acc::types"⟩
  let fs : ItemPath := ⟨"crate::hos::services::fs"⟩
  let internal : ItemPath := ⟨"crate::hos::services::internal"⟩
  let sm : ItemPath := ⟨"crate::hos::services::sm"⟩
  let time : ItemPath := ⟨"crate::hos::services::time"⟩
  let detail : ItemPath := ⟨"crate::hos::services::time::detail"⟩
  let service := ["ipcgen_macros", "service"]
  let any := ["std", "any", "Any"]
  let context := ["crate", "hos", "ServiceCtx"]
  let trait := ["crate", "hos", "IpcService"]
  let bytes := .path false [.mk "Vec" (.angled false [.type (named "u8")] false)]
  [modulesTo kernel ++ imports kernel [["super", "ServiceCtx"], service] ++
      [declared kernel "KernelObject" (some (.named "kernel" none)),
        block kernel "KernelObject" [("new", [mutable])]],
    modulesTo hos ++ imports hos [any] ++ [.module kernel .root, .module services .root,
      declared hos "ServiceCtx" none, block hos "ServiceCtx" [("new", [named "u64"])],
      .name (hos.join "IpcService")],
    modulesTo acc ++ [.module types .root] ++
      imports acc [["self", "types", "UserId"], trait, context, service, any] ++
      [declared acc "AccountService" (some (.named "acc:u0" none)),
        block acc "AccountService" [("new", [mutable]), ("with_user", [shared, named "UserId"])],
        .type ⟨acc.join "ApplicationManager", .root, true, [.named "acc:aa" none]⟩],
    modulesTo types ++ [declared types "UserId" none],
    modulesTo fs ++ imports fs [trait, context, service, any] ++
      [declared fs "FileSystemProxy" (some (.named "fsp-srv" (some "8"))),
        block fs "FileSystemProxy" [("open", [named "ServiceCtx", named "String"])],
        declared fs "SaveDataReader" (some (.named "fsp-ldr" none)),
        block fs "SaveDataReader" [("read", [shared, .reference none true bytes])],
        declared fs "ProgramRegistry" (some (.named "fsp-pr" none)),
        block fs "ProgramRegistry" [("new", [shared, named "u64", named "u8"])]],
    modulesTo internal ++ imports internal [trait, context, service, any] ++
      [declared internal "Internal" (some (.named "internal" none)),
        block internal "Internal" [("new", [mutable])]],
    modulesTo services ++ [.module acc .root, .module fs .root, .module sm .root,
      .module time .root, .module internal services],
    modulesTo sm ++ imports sm [trait, context, any, ["std", "any", "TypeId"]] ++
      [declared sm "UserInterface" none, block sm "UserInterface" []],
    modulesTo time ++ imports time [trait, context, service, any] ++
      [declared time "StaticService" (some (.named "time:u" none)),
        block time "StaticService"
          [("new", [shared]), ("fallback", [shared]), ("between", [named "u64", named "u64"])],
        declared time "SteadyClock" none, block time "SteadyClock" [("new", [shared])],
        declared time "SystemClock" (some (.named "time:s" none)),
        block time "SystemClock" [("new", [named "u64"])], .module detail time] ++
      imports detail [context, service] ++
      [declared detail "Hidden" (some (.named "time:p" none)),
        block detail "Hidden" [("new", [shared])]],
    modulesTo .root ++ [.module hos .root]]

/-- Every file can be read and declares what is listed. The literals are opened into their
characters, which are read much faster, and one file is read at a time. -/
theorem declares_modules : List.Forall₂ ModuleFile.Declares modules declarations := by
  unfold modules declarations kernelText hosText accountText userIdText fileSystemText internalText
    servicesText interfaceText timeText libraryText
  refine .cons ?_ <| .cons ?_ <| .cons ?_ <| .cons ?_ <| .cons ?_ <| .cons ?_ <| .cons ?_ <|
    .cons ?_ <| .cons ?_ <| .cons ?_ .nil
  all_goals
    refine declares_of_areSame ?_
    rw [ofText?_ofList]
    decide +kernel

/-! ## The table -/

/-- The table of a pass over some sources. -/
def tableOf? (sources : List Source) : Option DispatchTable :=
  (Artifact.ofFeed {} (Feed.ofSources {} sources)).toOption.map Artifact.table

/-- Sources that declare what is listed give the table of the host. -/
theorem tableOf?_eq {sources : List Source}
    (hsources : sources.map (·.declarations (.ofSettings {})) = declarations) :
    tableOf? sources = some table := by
  rw [tableOf?, Feed.ofSources, List.flatMap, hsources]
  decide +kernel

/-- Files that declare something can all be read, and their sources declare it. -/
theorem exists_sources_of_declares {files : List ModuleFile}
    {declarations : List (List Declaration)}
    (hfiles : List.Forall₂ ModuleFile.Declares files declarations) :
    ∃ sources, files.mapM ModuleFile.source? = some sources ∧
      sources.map (·.declarations (.ofSettings {})) = declarations := by
  induction hfiles with
  | nil => exact ⟨[], rfl, rfl⟩
  | cons hfile _ ih =>
    obtain ⟨source, hsource, rfl⟩ := hfile
    obtain ⟨sources, hsources, rfl⟩ := ih
    refine ⟨source :: sources, ?_, rfl⟩
    rw [List.mapM_cons, hsource, hsources]
    rfl

/-- The files can all be read, and a pass over them gives the table of the host. -/
theorem exists_tableOf?_modules : ∃ sources,
    modules.mapM ModuleFile.source? = some sources ∧ tableOf? sources = some table := by
  obtain ⟨sources, hsources, hdeclarations⟩ := exists_sources_of_declares declares_modules
  exact ⟨sources, hsources, tableOf?_eq hdeclarations⟩

/-- A pass over the crate of the host gives the table by which the host answers requests. -/
theorem exists_ofCrate_crate : ∃ artifact,
    Artifact.ofCrate {} crate ⟨"src"⟩ = .ok artifact ∧ artifact.table = table := by
  obtain ⟨sources, hsources, htable⟩ := exists_tableOf?_modules
  have hdirectory : crate.isDirectory ⟨"src"⟩ := by decide
  have hcrate : Source.ofCrate crate ⟨"src"⟩ = .ok sources := by
    rw [Source.ofCrate, if_pos hdirectory, filesOf_crate]
    exact mapM_ofFile hsources
  rw [Artifact.ofCrate, Feed.ofCrate, hcrate]
  rw [tableOf?] at htable
  cases hartifact : Artifact.ofFeed {} (Feed.ofSources {} sources) with
  | error e =>
    rw [hartifact] at htable
    cases htable
  | ok artifact =>
    rw [hartifact] at htable
    exact ⟨artifact, hartifact, Option.some.inj htable⟩

end ServiceDispatch.Host
