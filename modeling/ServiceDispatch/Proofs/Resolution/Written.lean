import ServiceDispatch.Proofs.Resolution.Parts
import ServiceDispatch.Proofs.Resolution.Paths

/-!
# Resolved types written anew

A resolved type can be written as a type: a path of the crate begins with `crate`, an external one
with the separator. If each of its paths keeps its meaning in a module, the written type resolves
there to what it was written from.
-/

namespace ServiceDispatch

/-! ## Writing resolved types -/

/-- The segments of a path with some names and arguments at its end. -/
def Segment.ofNames (args : PathArgs) : List String → List Segment
  | [] => []
  | [name] => [.mk name args]
  | name :: next :: rest => .mk name .none :: Segment.ofNames args (next :: rest)

/-- A path with arguments at its end, as a type. -/
def ItemPath.written (p : ItemPath) (args : PathArgs) : Ty :=
  .path p.isRooted (Segment.ofNames args p.segments)

namespace ResolvedTy

mutual

/-- A resolved type as a type. -/
def written : ResolvedTy → Ty
  | .path base => base.written .none
  | .applied base args => base.written (.angled false (writtenOfArgs args) false)
  | .tuple elems => .tuple (writtenOfAll elems) (elems.length == 1)
  | .array elem length => .array elem.written length
  | .slice elem => .slice elem.written
  | .reference mutable target => .reference (some "static") mutable target.written

/-- Several resolved types as types. -/
def writtenOfAll : List ResolvedTy → List Ty
  | [] => []
  | t :: ts => t.written :: writtenOfAll ts

/-- A resolved argument as a generic argument. -/
def writtenOfArg : ResolvedArg → TyArg
  | .static => .lifetime "static"
  | .type t => .type t.written
  | .const value => .const value

/-- Several resolved arguments as generic arguments. -/
def writtenOfArgs : List ResolvedArg → List TyArg
  | [] => []
  | arg :: args => writtenOfArg arg :: writtenOfArgs args

end

end ResolvedTy

namespace Segment

/-- The names of the segments are the given ones. -/
theorem map_name_ofNames (args : PathArgs) (names : List String) :
    (ofNames args names).map Segment.name = names := by
  induction names with
  | nil => rfl
  | cons name names ih =>
    cases names with
    | nil => rfl
    | cons next rest => rw [ofNames, List.map_cons, ih, Segment.name]

/-- Only the last segment has arguments, so that none are refused before the end. -/
theorem any_dropLast_ofNames (args : PathArgs) (names : List String) :
    ((ofNames args names).dropLast.any fun s => !s.args.isEmpty) = false := by
  induction names with
  | nil => rfl
  | cons name names ih =>
    cases names with
    | nil => rfl
    | cons next rest =>
      have hne : ofNames args (next :: rest) ≠ [] := by
        cases rest <;> exact List.cons_ne_nil _ _
      rw [ofNames, List.dropLast_cons_of_ne_nil hne, List.any_cons, ih]
      rfl

end Segment

namespace ResolvedTy

open Results

variable {base : BaseResolver}

/-- The arguments of a path are those of its last segment. -/
theorem ofLastArgs_ofNames (whole : String) (args : PathArgs) {names : List String}
    (hnames : names ≠ []) :
    ofLastArgs base whole (Segment.ofNames args names) = ofArgs base whole args := by
  induction names with
  | nil => exact absurd rfl hnames
  | cons name names ih =>
    cases names with
    | nil => rfl
    | cons next rest =>
      rw [Segment.ofNames, ← ih (List.cons_ne_nil next rest)]
      cases rest <;> rfl

/-- Whether a path keeps its meaning when it is written with any arguments. -/
def Keeps (base : BaseResolver) (p : ItemPath) : Prop :=
  p.segments ≠ [] ∧
    ∀ whole args, base whole p.isRooted (Segment.ofNames args p.segments) = .ok p

mutual

/-- A written type resolves to what it was written from, if its paths keep their meaning. -/
theorem ofTy_written (u : ResolvedTy) :
    (∀ p, .path p ∈ u.parts → Keeps base p) → ofTy base u.written = .ok u := by
  intro hkeeps
  cases u with
  | path p =>
    obtain ⟨hne, hp⟩ := hkeeps p List.mem_cons_self
    rw [written, ItemPath.written, ofTy]
    refine bind_eq_ok_iff.mpr ⟨p, hp _ _, bind_eq_ok_iff.mpr ⟨none, ?_, rfl⟩⟩
    rw [ofLastArgs_ofNames _ _ hne]
    rfl
  | applied p args =>
    obtain ⟨hne, hp⟩ := hkeeps p List.mem_cons_self
    rw [written, ItemPath.written, ofTy]
    refine bind_eq_ok_iff.mpr ⟨p, hp _ _, bind_eq_ok_iff.mpr ⟨some args, ?_, rfl⟩⟩
    rw [ofLastArgs_ofNames _ _ hne, ofArgs]
    refine bind_eq_ok_iff.mpr ⟨args, ofTyArgs_written args _ ?_, rfl⟩
    exact fun p hp => hkeeps p (List.mem_cons_of_mem _ hp)
  | tuple elems =>
    rw [written, ofTy]
    exact bind_eq_ok_iff.mpr ⟨elems, ofTys_written elems hkeeps, rfl⟩
  | array elem length =>
    have helem := ofTy_written elem fun p hp => hkeeps p (List.mem_cons_of_mem _ hp)
    rw [written, ofTy]
    exact bind_eq_ok_iff.mpr ⟨elem, helem, rfl⟩
  | slice elem =>
    have helem := ofTy_written elem hkeeps
    rw [written, ofTy]
    exact bind_eq_ok_iff.mpr ⟨elem, helem, rfl⟩
  | reference mutable target =>
    have htarget := ofTy_written target hkeeps
    rw [written, ofTy]
    exact bind_eq_ok_iff.mpr ⟨_, rfl, bind_eq_ok_iff.mpr ⟨target, htarget, rfl⟩⟩

/-- Written types resolve to what they were written from, if all paths in them are kept. -/
theorem ofTys_written (us : List ResolvedTy) :
    (∀ p, .path p ∈ partsOfAll us → Keeps base p) → ofTys base (writtenOfAll us) = .ok us := by
  intro hkeeps
  cases us with
  | nil => rfl
  | cons u us =>
    have hu := ofTy_written u fun p hp => hkeeps p (List.mem_append_left _ hp)
    have hus := ofTys_written us fun p hp => hkeeps p (List.mem_append_right _ hp)
    rw [writtenOfAll, ofTys]
    exact bind_eq_ok_iff.mpr ⟨u, hu, bind_eq_ok_iff.mpr ⟨us, hus, rfl⟩⟩

/-- Written arguments resolve to what they were written from, if all paths in them are kept. -/
theorem ofTyArgs_written (args : List ResolvedArg) :
    ∀ whole, (∀ p, .path p ∈ partsOfArgs args → Keeps base p) →
      ofTyArgs base whole (writtenOfArgs args) = .ok args := by
  intro whole hkeeps
  cases args with
  | nil => rfl
  | cons arg args =>
    have harg := ofTyArg_written arg whole fun p hp => hkeeps p (List.mem_append_left _ hp)
    have hargs := ofTyArgs_written args whole fun p hp => hkeeps p (List.mem_append_right _ hp)
    rw [writtenOfArgs, ofTyArgs]
    exact bind_eq_ok_iff.mpr ⟨arg, harg, bind_eq_ok_iff.mpr ⟨args, hargs, rfl⟩⟩

/-- A written argument resolves to what it was written from. -/
theorem ofTyArg_written (arg : ResolvedArg) :
    ∀ whole, (∀ p, .path p ∈ partsOfArg arg → Keeps base p) →
      ofTyArg base whole (writtenOfArg arg) = .ok arg := by
  intro whole hkeeps
  cases arg with
  | static => rfl
  | type t =>
    have ht := ofTy_written t hkeeps
    rw [writtenOfArg, ofTyArg]
    exact bind_eq_ok_iff.mpr ⟨t, ht, rfl⟩
  | const value => rfl

end

end ResolvedTy

end ServiceDispatch
