import ServiceDispatch.Proofs.Files.Contents
import ServiceDispatch.Proofs.Results
import ServiceDispatch.Session

/-!
# The history of a session

A session keeps its files and its artifact together: a pass that fails leaves both as they were,
and a write that succeeds changes the content of its output and of no other file. Over a whole run
the content of a file changes only where an edit changes it or a successful write puts the source
text of the current artifact.
-/

namespace ServiceDispatch

open Files (FilePath FileTree FileContent Location)

namespace PassError

/-- Whether a pass fails before it writes anything. -/
def isBeforeWriting : PassError → Bool
  | .missingSource _ | .unreadable _ | .unparsable _ | .unresolvedPayload _ => true
  | .unwritable _ | .missingVariable _ => false

end PassError

namespace Artifact

variable {settings : Settings} {artifact : Artifact} {tree after : FileTree}
  {directory output : FilePath}

/-- A pass that fails does so before it writes anything: scanning and selecting come first, and the
output is touched only after both. -/
theorem isBeforeWriting_of_ofCrate {error : PassError}
    (herror : ofCrate settings tree directory = .error error) : error.isBeforeWriting := by
  rcases Results.bind_eq_error_iff.mp herror with hfeed | ⟨feed, -, hselect⟩
  · have hsources := Results.map_eq_error_iff.mp hfeed
    rw [Source.ofCrate] at hsources
    split at hsources
    · obtain ⟨-, ⟨module, path, node⟩, -, -, hfile, -⟩ := Results.mapM_eq_error_iff.mp hsources
      unfold Source.ofFile at hfile
      cases node with
      | directory =>
        obtain rfl := Except.error.inj hfile
        rfl
      | file content =>
        cases content with
        | binary bytes =>
          obtain rfl := Except.error.inj hfile
          rfl
        | text text =>
          cases hsource : Source.ofText? module text with
          | some source => simp [hsource] at hfile
          | none =>
            obtain rfl : PassError.unparsable path = error := by simpa [hsource] using hfile
            rfl
    · obtain rfl := Except.error.inj hsources
      rfl
  · rw [ofFeed, ofCandidates] at hselect
    split at hselect
    · exact nomatch hselect
    · obtain rfl := Except.error.inj hselect
      rfl

/-- Whether a write leaves the source text of an artifact in its output and changes the content of
no other file. If the output held this text before, nothing changes at all. -/
structure PublishedTo (artifact : Artifact) (output : FilePath) (before after : FileTree) :
    Prop where
  isCurrent : artifact.isCurrent after output
  others : ∃ location, after.locate? output = some location ∧
    after.contentAt? location = some (.text artifact.source) ∧
    ∀ other, other ≠ location → before.KeepsAt after other
  idle : before.text? output = some artifact.source → after = before

/-- An artifact is current where a file holds its source text. -/
theorem isCurrent_iff : artifact.isCurrent tree output ↔
    tree.text? output = some artifact.source := by
  rw [isCurrent, beq_iff_eq]

/-- The file of an artifact that is current stands at a place. -/
theorem exists_location_of_isCurrent (hcurrent : artifact.isCurrent tree output) :
    ∃ location, tree.locate? output = some location ∧
      tree.contentAt? location = some (.text artifact.source) := by
  obtain ⟨content, hcontent, htext⟩ := Option.bind_eq_some_iff.mp (isCurrent_iff.mp hcurrent)
  have hfile : content = .text artifact.source := by
    cases content with
    | text held => rw [FileContent.text?, Option.some.injEq] at htext; rw [htext]
    | binary bytes => cases htext
  subst hfile
  rw [FileTree.content?] at hcontent
  split at hcontent
  · rename_i found hfind
    obtain rfl := Option.some.inj hcontent
    obtain ⟨location, hlocation, hnode⟩ := Option.bind_eq_some_iff.mp hfind
    exact ⟨location, hlocation, by rw [FileTree.contentAt?, hnode]⟩
  · cases hcontent

/-- A write that succeeds publishes the artifact. It says that it wrote nothing exactly if the
output held the text before. -/
theorem writeTo_eq_ok {changed : Bool}
    (hwrite : artifact.writeTo tree output = (after, .ok changed)) :
    artifact.PublishedTo output tree after ∧
      (changed = false ↔ tree.text? output = some artifact.source) := by
  rw [writeTo] at hwrite
  by_cases hcurrent : artifact.isCurrent tree output
  · rw [if_pos hcurrent] at hwrite
    obtain ⟨rfl, hchanged⟩ := Prod.mk.inj hwrite
    obtain rfl := Except.ok.inj hchanged
    obtain ⟨location, hlocation, hcontent⟩ := exists_location_of_isCurrent hcurrent
    refine ⟨⟨hcurrent, ⟨location, hlocation, hcontent, fun _ _ => .inl rfl⟩, fun _ => rfl⟩, ?_⟩
    simpa using isCurrent_iff.mp hcurrent
  · rw [if_neg hcurrent] at hwrite
    have hstale : tree.text? output ≠ some artifact.source :=
      fun h => hcurrent (isCurrent_iff.mpr h)
    split at hwrite
    · rename_i written hwritten
      obtain ⟨rfl, hchanged⟩ := Prod.mk.inj hwrite
      obtain rfl := Except.ok.inj hchanged
      obtain ⟨location, hlocation, hnode, hothers⟩ := FileTree.write_eq_true hwritten
      have htext : written.text? output = some artifact.source := by
        simp [FileTree.text?, FileTree.content?, FileTree.find?, hlocation, hnode,
          FileContent.text?]
      have hcontent : written.contentAt? location = some (.text artifact.source) := by
        rw [FileTree.contentAt?, hnode]
      refine ⟨⟨isCurrent_iff.mpr htext, ⟨location, hlocation, hcontent, hothers⟩, ?_⟩, ?_⟩
      · exact fun h => absurd h hstale
      · simpa using hstale
    · cases (Prod.mk.inj hwrite).2

/-- A write that fails says so of its output and adds directories at most. -/
theorem writeTo_eq_error {error : PassError}
    (hwrite : artifact.writeTo tree output = (after, .error error)) :
    error = .unwritable output ∧ tree.OnlyAddsDirectories after := by
  rw [writeTo] at hwrite
  by_cases hcurrent : artifact.isCurrent tree output
  · rw [if_pos hcurrent] at hwrite
    exact nomatch (Prod.mk.inj hwrite).2
  · rw [if_neg hcurrent] at hwrite
    split at hwrite
    · exact nomatch (Prod.mk.inj hwrite).2
    · rename_i written hwritten
      obtain ⟨rfl, herror⟩ := Prod.mk.inj hwrite
      exact ⟨(Except.error.inj herror).symm, FileTree.write_eq_false hwritten⟩

/-- A pass with an output that succeeds is a pass that succeeds and a write that does. -/
theorem generateTo_eq_ok {changed : Bool}
    (hgenerate : generateTo settings tree directory output = (after, .ok (artifact, changed))) :
    ofCrate settings tree directory = .ok artifact ∧
      artifact.writeTo tree output = (after, .ok changed) := by
  rw [generateTo] at hgenerate
  cases hpass : ofCrate settings tree directory with
  | error error => simp [hpass] at hgenerate
  | ok found =>
    simp only [hpass] at hgenerate
    obtain ⟨hafter, hwritten⟩ := Prod.mk.inj hgenerate
    obtain ⟨value, hvalue, heq⟩ := Results.map_eq_ok_iff.mp hwritten
    obtain ⟨rfl, rfl⟩ := Prod.mk.inj heq
    exact ⟨rfl, Prod.ext hafter hvalue⟩

/-- A pass with an output that fails is a pass that fails, or a pass that succeeds and a write that
does not. -/
theorem generateTo_eq_error {error : PassError}
    (hgenerate : generateTo settings tree directory output = (after, .error error)) :
    ofCrate settings tree directory = .error error ∧ after = tree ∨
      ∃ artifact, ofCrate settings tree directory = .ok artifact ∧
        artifact.writeTo tree output = (after, .error error) := by
  rw [generateTo] at hgenerate
  cases hpass : ofCrate settings tree directory with
  | error cause =>
    simp only [hpass, Prod.mk.injEq, Except.error.injEq] at hgenerate
    obtain ⟨rfl, rfl⟩ := hgenerate
    exact .inl ⟨rfl, rfl⟩
  | ok found =>
    simp only [hpass] at hgenerate
    obtain ⟨hafter, hwritten⟩ := Prod.mk.inj hgenerate
    exact .inr ⟨found, rfl, Prod.ext hafter (Results.map_eq_error_iff.mp hwritten)⟩

end Artifact

/-! ## Transitions -/

/-- A step with its reply and with the sessions before and after it. -/
structure Transition where
  before : Session
  step : SessionStep
  reply : SessionReply
  after : Session

namespace SessionStep

/-- The file that a step writes the artifact to. -/
def output? : SessionStep → Option FilePath
  | .generateTo _ output | .writeTo output => some output
  | _ => none

/-- The directory that a step runs a pass over. -/
def directory? : SessionStep → Option FilePath
  | .generate directory | .generateTo directory _ => some directory
  | _ => none

/-- Whether a step changes files by itself. -/
def isEdit : SessionStep → Bool
  | .put _ _ | .makeDirectory _ | .remove _ => true
  | .generate _ | .generateTo _ _ | .writeTo _ => false

end SessionStep

namespace SessionReply

/-- Whether a pass or a write succeeded. -/
def isSuccess : SessionReply → Bool
  | .generated _ | .written _ => true
  | .none | .failed _ => false

end SessionReply

namespace Transition

/-- Whether a step is all or nothing. -/
structure IsAllOrNothing (settings : Settings) (t : Transition) : Prop where
  /-- A failure is one of a pass before it writes, and leaves everything as it was, or one of a
  write, and changes neither the content of a file nor the artifact. -/
  failed : ∀ error, t.reply = .failed error →
    error.isBeforeWriting ∧ t.after = t.before ∨
      (∃ output, t.step.output? = some output ∧ error = .unwritable output) ∧
        t.before.files.OnlyAddsDirectories t.after.files ∧ t.after.artifact = t.before.artifact
  /-- A pass that succeeds makes the artifact of the crate current. Without an output it changes
  no file. -/
  generated : ∀ artifact, t.reply = .generated artifact →
    (∃ directory, t.step.directory? = some directory ∧
      Artifact.ofCrate settings t.before.files directory = .ok artifact) ∧
    t.after.artifact = some artifact ∧ (t.step.output? = none → t.after.files = t.before.files)
  /-- A write that succeeds publishes the current artifact. -/
  published : ∀ output, t.step.output? = some output → t.reply.isSuccess →
    ∃ artifact, t.after.artifact = some artifact ∧
      artifact.PublishedTo output t.before.files t.after.files
  /-- A write of the artifact says that it wrote nothing exactly if the output held the text. -/
  written : ∀ changed, t.reply = .written changed →
    ∃ output artifact, t.step = .writeTo output ∧ t.before.artifact = some artifact ∧
      t.after.artifact = some artifact ∧
      (changed = false ↔ t.before.files.text? output = some artifact.source)
  /-- A step without an answer is an edit, or there was no artifact to write. -/
  unanswered : t.reply = .none → t.step.isEdit ∨ t.after = t.before

/-- Whether a step may change the content at a place: it is an edit, or a write that succeeds, whose
output is there and holds the source text of the current artifact. -/
def Rewrites (t : Transition) (location : Location) : Prop :=
  t.step.isEdit ∨ ∃ output artifact, t.step.output? = some output ∧ t.reply.isSuccess ∧
    t.after.artifact = some artifact ∧ t.after.files.locate? output = some location ∧
    t.after.files.contentAt? location = some (.text artifact.source)

/-- A step that is all or nothing keeps the content at a place unless it rewrites it. -/
theorem IsAllOrNothing.contentAt?_eq_or {settings : Settings} {t : Transition}
    (ht : t.IsAllOrNothing settings) (location : Location) :
    t.after.files.contentAt? location = t.before.files.contentAt? location ∨
      t.Rewrites location := by
  have hwrite {output : FilePath} (houtput : t.step.output? = some output)
      (hsuccess : t.reply.isSuccess) :
      t.after.files.contentAt? location = t.before.files.contentAt? location ∨
        t.Rewrites location := by
    obtain ⟨artifact, hartifact, hpublished⟩ := ht.published output houtput hsuccess
    obtain ⟨place, hplace, hcontent, hothers⟩ := hpublished.others
    by_cases hlocation : location = place
    · subst hlocation
      exact .inr (.inr ⟨output, artifact, houtput, hsuccess, hartifact, hplace, hcontent⟩)
    · exact .inl (hothers location hlocation).contentAt?_eq
  cases hreply : t.reply with
  | none =>
    rcases ht.unanswered hreply with hedit | hsame
    · exact .inr (.inl hedit)
    · exact .inl (by rw [hsame])
  | failed error =>
    rcases ht.failed error hreply with ⟨-, hsame⟩ | ⟨-, hkeeps, -⟩
    · exact .inl (by rw [hsame])
    · exact .inl (hkeeps location).contentAt?_eq
  | generated artifact =>
    cases houtput : t.step.output? with
    | none => exact .inl (by rw [(ht.generated artifact hreply).2.2 houtput])
    | some output => exact hwrite houtput (by rw [hreply]; rfl)
  | written changed =>
    obtain ⟨output, -, hstep, -⟩ := ht.written changed hreply
    exact hwrite (by rw [hstep]; rfl) (by rw [hreply]; rfl)

end Transition

namespace Session

/-- The transition of a step. -/
def transition (settings : Settings) (s : Session) (step : SessionStep) : Transition :=
  ⟨s, step, (s.step settings step).2, (s.step settings step).1⟩

/-- The transitions of a run. -/
def history (settings : Settings) : Session → List SessionStep → List Transition
  | _, [] => []
  | s, step :: steps =>
    s.transition settings step :: history settings (s.step settings step).1 steps

/-- A pass without an output is all or nothing. It leaves the files alone in either case, and
replaces the last artifact only if it succeeds. -/
theorem transition_generate (settings : Settings) (s : Session) (directory : FilePath) :
    (s.transition settings (.generate directory)).IsAllOrNothing settings := by
  cases hpass : Artifact.ofCrate settings s.files directory with
  | ok artifact =>
    have hstep : s.step settings (.generate directory) =
        ({ s with artifact := some artifact }, .generated artifact) := by simp [step, hpass]
    rw [transition, hstep]
    refine ⟨nofun, ?_, nofun, nofun, nofun⟩
    rintro artifact ⟨⟩
    exact ⟨⟨directory, rfl, hpass⟩, rfl, fun _ => rfl⟩
  | error error =>
    have hstep : s.step settings (.generate directory) = (s, .failed error) := by simp [step, hpass]
    rw [transition, hstep]
    refine ⟨?_, nofun, nofun, nofun, nofun⟩
    rintro error ⟨⟩
    exact .inl ⟨Artifact.isBeforeWriting_of_ofCrate hpass, rfl⟩

/-- A pass with an output is all or nothing. It may fail as a pass without an output does, and after
that the write may fail, which leaves directories behind at most. -/
theorem transition_generateTo (settings : Settings) (s : Session) (directory output : FilePath) :
    (s.transition settings (.generateTo directory output)).IsAllOrNothing settings := by
  rcases hgenerate : Artifact.generateTo settings s.files directory output with ⟨files, outcome⟩
  cases outcome with
  | ok result =>
    obtain ⟨artifact, changed⟩ := result
    obtain ⟨hpass, hwrite⟩ := Artifact.generateTo_eq_ok hgenerate
    have hstep : s.step settings (.generateTo directory output) =
        (⟨files, some artifact⟩, .generated artifact) := by simp [step, hgenerate]
    rw [transition, hstep]
    refine ⟨nofun, ?_, ?_, nofun, nofun⟩
    · rintro artifact ⟨⟩
      exact ⟨⟨directory, rfl, hpass⟩, rfl, nofun⟩
    · rintro output ⟨⟩ -
      exact ⟨artifact, rfl, (Artifact.writeTo_eq_ok hwrite).1⟩
  | error error =>
    have hstep : s.step settings (.generateTo directory output) =
        ({ s with files }, .failed error) := by simp [step, hgenerate]
    rw [transition, hstep]
    refine ⟨?_, nofun, nofun, nofun, nofun⟩
    rintro error ⟨⟩
    rcases Artifact.generateTo_eq_error hgenerate with ⟨hpass, rfl⟩ | ⟨artifact, hpass, hwrite⟩
    · exact .inl ⟨Artifact.isBeforeWriting_of_ofCrate hpass, rfl⟩
    · obtain ⟨rfl, hkeeps⟩ := Artifact.writeTo_eq_error hwrite
      exact .inr ⟨⟨output, rfl, rfl⟩, hkeeps, rfl⟩

/-- A write of the artifact is all or nothing. Without an artifact of an earlier pass there is
nothing to write and the session stays as it is. -/
theorem transition_writeTo (settings : Settings) (s : Session) (output : FilePath) :
    (s.transition settings (.writeTo output)).IsAllOrNothing settings := by
  cases hartifact : s.artifact with
  | none =>
    have hstep : s.step settings (.writeTo output) = (s, .none) := by simp [step, hartifact]
    rw [transition, hstep]
    exact ⟨nofun, nofun, nofun, nofun, fun _ => .inr rfl⟩
  | some artifact =>
    rcases hwrite : artifact.writeTo s.files output with ⟨files, outcome⟩
    cases outcome with
    | ok changed =>
      obtain ⟨hpublished, hchanged⟩ := Artifact.writeTo_eq_ok hwrite
      have hstep : s.step settings (.writeTo output) = ({ s with files }, .written changed) := by
        simp [step, hartifact, hwrite]
      rw [transition, hstep]
      refine ⟨nofun, nofun, ?_, ?_, nofun⟩
      · rintro output ⟨⟩ -
        exact ⟨artifact, hartifact, hpublished⟩
      · rintro changed ⟨⟩
        exact ⟨output, artifact, rfl, hartifact, hartifact, hchanged⟩
    | error error =>
      obtain ⟨rfl, hkeeps⟩ := Artifact.writeTo_eq_error hwrite
      have hstep : s.step settings (.writeTo output) =
          ({ s with files }, .failed (.unwritable output)) := by simp [step, hartifact, hwrite]
      rw [transition, hstep]
      refine ⟨?_, nofun, nofun, nofun, nofun⟩
      rintro error ⟨⟩
      exact .inr ⟨⟨output, rfl, rfl⟩, hkeeps, rfl⟩

/-- Every step is all or nothing, whatever the session before it holds. This is the step that the
induction over a history repeats. -/
theorem transition_isAllOrNothing (settings : Settings) (s : Session) (step : SessionStep) :
    (s.transition settings step).IsAllOrNothing settings := by
  cases step with
  | put path content => exact ⟨nofun, nofun, nofun, nofun, fun _ => .inl rfl⟩
  | makeDirectory path => exact ⟨nofun, nofun, nofun, nofun, fun _ => .inl rfl⟩
  | remove path => exact ⟨nofun, nofun, nofun, nofun, fun _ => .inl rfl⟩
  | generate directory => exact s.transition_generate settings directory
  | generateTo directory output => exact s.transition_generateTo settings directory output
  | writeTo output => exact s.transition_writeTo settings output

/-- Over every run each step is all or nothing, and the content of a file changes only if a step of
the run rewrites it. The session may begin with any files and with any artifact. -/
theorem history_isAllOrNothing (settings : Settings) (s : Session) (steps : List SessionStep) :
    (∀ t ∈ s.history settings steps, t.IsAllOrNothing settings) ∧
      ∀ location, (s.run settings steps).files.contentAt? location = s.files.contentAt? location ∨
        ∃ t ∈ s.history settings steps, t.Rewrites location := by
  induction steps generalizing s with
  | nil => exact ⟨fun _ ht => absurd ht List.not_mem_nil, fun _ => .inl rfl⟩
  | cons step steps ih =>
    have hfirst := s.transition_isAllOrNothing settings step
    obtain ⟨hrest, hcontent⟩ := ih (s.step settings step).1
    refine ⟨List.forall_mem_cons.mpr ⟨hfirst, hrest⟩, fun location => ?_⟩
    rcases hcontent location with hsame | ⟨t, ht, hrewrites⟩
    · rcases hfirst.contentAt?_eq_or location with hstep | hrewrites
      · exact .inl (hsame.trans hstep)
      · exact .inr ⟨_, List.mem_cons_self, hrewrites⟩
    · exact .inr ⟨t, List.mem_cons_of_mem _ ht, hrewrites⟩

/-- The text of a file with the context and, in a module, one service. -/
def serviceText : String :=
  "pub struct ServiceCtx;\npub mod services \x7b\n    #[service]\n    pub struct Acc;\n" ++
    "    impl Acc \x7b pub fn new(c: &super::ServiceCtx) -> Self \x7b Acc \x7d \x7d\n\x7d\n"

/-- The rule of the service. -/
def serviceRule : DispatchRule := ⟨⟨"crate::hos::services::Acc"⟩, some ⟨"new", .shared⟩, none⟩

/-- The artifact of a crate with only this file. -/
def serviceArtifact : Artifact :=
  ⟨DispatchTable.source [serviceRule] {}, [serviceRule], [⟨⟨"crate::hos::ServiceCtx"⟩, .unmarked⟩]⟩

/-- Steps with a file in the way of the output, which is then removed. Later there is a crate, and a
pass over it has the same output. -/
def fileInTheWay : List SessionStep :=
  [.put ⟨"out"⟩ (.binary [255]), .writeTo ⟨"out/gen.rs"⟩, .generateTo ⟨"src"⟩ ⟨"out/gen.rs"⟩,
    .remove ⟨"out"⟩, .writeTo ⟨"out/gen.rs"⟩, .writeTo ⟨"./out/gen.rs"⟩,
    .put ⟨"src/hos.rs"⟩ (.text serviceText), .generateTo ⟨"src"⟩ ⟨"out/gen.rs"⟩]

/-- The first write fails and keeps the file in its way. In the end the output holds the artifact,
first the one from before and then that of the crate. -/
theorem history_fileInTheWay :
    let s : Session := ⟨{}, some ⟨"// no rules", [], []⟩⟩
    let failed := (s.run {} (fileInTheWay.take 1)).transition {} (.writeTo ⟨"out/gen.rs"⟩)
    let passed := (s.run {} (fileInTheWay.take 7)).transition {}
      (.generateTo ⟨"src"⟩ ⟨"out/gen.rs"⟩)
    (s.history {} fileInTheWay).map (·.reply) =
        [.none, .failed (.unwritable ⟨"out/gen.rs"⟩), .failed (.missingSource ⟨"src"⟩), .none,
          .written true, .written false, .none, .generated serviceArtifact] ∧
      failed ∈ s.history {} fileInTheWay ∧ failed.IsAllOrNothing {} ∧
      passed ∈ s.history {} fileInTheWay ∧ passed.IsAllOrNothing {} ∧
      serviceArtifact.PublishedTo ⟨"out/gen.rs"⟩ passed.before.files passed.after.files ∧
      (s.run {} fileInTheWay).files.contentAt? ["out", "gen.rs"] ≠
        s.files.contentAt? ["out", "gen.rs"] ∧
      ∃ t ∈ s.history {} fileInTheWay, t.Rewrites ["out", "gen.rs"] := by
  intro s failed passed
  have hreplies : (s.history {} fileInTheWay).map (·.reply) =
      [.none, .failed (.unwritable ⟨"out/gen.rs"⟩), .failed (.missingSource ⟨"src"⟩), .none,
        .written true, .written false, .none, .generated serviceArtifact] := by decide +kernel
  have hfailed : failed ∈ s.history {} fileInTheWay := .tail _ (.head _)
  have hlast : (s.history {} fileInTheWay)[7]? = some passed := rfl
  have hpassed : passed ∈ s.history {} fileInTheWay := List.mem_of_getElem? hlast
  obtain ⟨hsteps, hcontent⟩ := history_isAllOrNothing {} s fileInTheWay
  have hreply : passed.reply = .generated serviceArtifact := by
    have hat := congrArg (·[7]?) hreplies
    rw [List.getElem?_map, hlast] at hat
    exact Option.some.inj hat
  have hpublished :
      serviceArtifact.PublishedTo ⟨"out/gen.rs"⟩ passed.before.files passed.after.files := by
    obtain ⟨artifact, hartifact, hpublished⟩ :=
      (hsteps passed hpassed).published ⟨"out/gen.rs"⟩ rfl (by rw [hreply]; rfl)
    have hsame := ((hsteps passed hpassed).generated serviceArtifact hreply).2.1
    rwa [Option.some.inj (hsame.symm.trans hartifact)]
  have hchanged : (s.run {} fileInTheWay).files.contentAt? ["out", "gen.rs"] ≠
      s.files.contentAt? ["out", "gen.rs"] := by decide +kernel
  refine ⟨hreplies, hfailed, hsteps failed hfailed, hpassed, hsteps passed hpassed, hpublished,
    hchanged, ?_⟩
  exact (hcontent ["out", "gen.rs"]).resolve_left hchanged

end Session

end ServiceDispatch
