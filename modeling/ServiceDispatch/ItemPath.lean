/-!
# Item paths

The path of a module or an item is one text whose segments stand between the separators
`::`. Paths of the scanned crate start with `crate`, paths of other crates with `::`. A path
never carries generic arguments.
-/

namespace ServiceDispatch

/-- The parts of a text between the separators `::`, read from the left. -/
def splitColons : List Char → List (List Char)
  | [] => [[]]
  | ':' :: ':' :: rest => [] :: splitColons rest
  | c :: rest =>
    match splitColons rest with
    | [] => [[c]]
    | part :: parts => (c :: part) :: parts

/-- The text before the last separator `::`, if there is one. -/
def beforeLastColons : List Char → Option (List Char)
  | [] => none
  | c :: rest =>
    match beforeLastColons rest with
    | some head => some (c :: head)
    | none =>
      match c, rest with
      | ':', ':' :: _ => some []
      | _, _ => none

/-- Whether a text can be one segment of a path. -/
def IsSegment (name : String) : Prop := name ≠ "" ∧ ':' ∉ name.toList

instance (name : String) : Decidable (IsSegment name) := inferInstanceAs (Decidable (_ ∧ _))

/-- The path of a module or an item, as written. -/
structure ItemPath where
  text : String
deriving DecidableEq, Repr, Inhabited

namespace ItemPath

/-- The root module of the scanned crate. -/
def root : ItemPath := ⟨"crate"⟩

/-- The segments that are not empty, from left to right. -/
def segments (p : ItemPath) : List String :=
  ((splitColons p.text.toList).filter (· ≠ [])).map String.ofList

/-- The last segment, or the empty text if there is none. -/
def terminal (p : ItemPath) : String := p.segments.getLast?.getD ""

/-- The path of a member called `name`. -/
def join (p : ItemPath) (name : String) : ItemPath := ⟨p.text ++ "::" ++ name⟩

/-- The path before the last separator, unless nothing stands before it. -/
def parent? (p : ItemPath) : Option ItemPath :=
  match beforeLastColons p.text.toList with
  | some [] => none
  | some head => some ⟨String.ofList head⟩
  | none => none

/-- The parent, or the crate root for a path without one. -/
def parentOrRoot (p : ItemPath) : ItemPath := p.parent?.getD root

/-- The number of segments after the first. -/
def depth (p : ItemPath) : Nat := p.segments.length - 1

/-- Whether the segments of `scope` are the first segments of the path. -/
def isUnder (p scope : ItemPath) : Bool := scope.segments.isPrefixOf p.segments

/-- Whether the path starts at the root of the scanned crate. -/
def isCrateLocal (p : ItemPath) : Bool :=
  p.text == "crate" || "crate::".toList.isPrefixOf p.text.toList

/-- The path of an item of another crate, from its names. -/
def external (names : List String) : ItemPath := ⟨"::" ++ String.intercalate "::" names⟩

end ItemPath

/-- The text before the last separator is shorter than the whole. -/
theorem length_lt_of_beforeLastColons {cs head : List Char} (h : beforeLastColons cs = some head) :
    head.length < cs.length := by
  induction cs generalizing head with
  | nil => simp [beforeLastColons] at h
  | cons c rest ih =>
    simp only [beforeLastColons] at h
    split at h
    · rename_i tail htail
      obtain rfl := Option.some.inj h
      have := ih htail
      simpa using this
    · split at h
      · obtain rfl := Option.some.inj h
        simp
      · simp at h

namespace ItemPath

/-- A parent path is shorter than the path. -/
theorem length_lt_of_parent? {p q : ItemPath} (h : p.parent? = some q) :
    q.text.toList.length < p.text.toList.length := by
  simp only [parent?] at h
  split at h
  · simp at h
  · rename_i head hhead
    obtain rfl := Option.some.inj h
    simpa using length_lt_of_beforeLastColons hhead
  · simp at h

/-- The paths reached by taking parents, nearest first. -/
def ancestors (p : ItemPath) : List ItemPath :=
  match _h : p.parent? with
  | some q => q :: q.ancestors
  | none => []
termination_by p.text.toList.length
decreasing_by exact length_lt_of_parent? _h

end ItemPath

end ServiceDispatch
