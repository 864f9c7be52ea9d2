import ServiceDispatch.Proofs.Resolution.ResolvedTy
import ServiceDispatch.Proofs.Results

/-!
# Resolving with more paths

If all paths that mean something keep their meaning, then so does every type that resolves.
-/

namespace ServiceDispatch

namespace ResolvedTy

open Results

variable {base base' : BaseResolver}

/-- Whether paths keep the meanings that they have. -/
def Refines (base base' : BaseResolver) : Prop :=
  ∀ whole rooted segments p,
    base whole rooted segments = .ok p → base' whole rooted segments = .ok p

mutual

/-- A type keeps its meaning if all paths do. The induction is on the type, whose parts are read one
by one. -/
theorem ofTy_of_refines (hbase : Refines base base') (t : Ty) :
    ∀ u, ofTy base t = .ok u → ofTy base' t = .ok u := by
  intro u hu
  cases t with
  | path rooted segments =>
    rw [ofTy] at hu ⊢
    obtain ⟨p, hp, hu⟩ := bind_eq_ok_iff.mp hu
    obtain ⟨args, hargs, hu⟩ := bind_eq_ok_iff.mp hu
    exact bind_eq_ok_iff.mpr ⟨p, hbase _ _ _ _ hp,
      bind_eq_ok_iff.mpr ⟨args, ofLastArgs_of_refines hbase segments _ args hargs, hu⟩⟩
  | tuple elems trailing =>
    rw [ofTy] at hu ⊢
    obtain ⟨us, hus, hu⟩ := bind_eq_ok_iff.mp hu
    exact bind_eq_ok_iff.mpr ⟨us, ofTys_of_refines hbase elems us hus, hu⟩
  | array elem length =>
    rw [ofTy] at hu ⊢
    obtain ⟨v, hv, hu⟩ := bind_eq_ok_iff.mp hu
    exact bind_eq_ok_iff.mpr ⟨v, ofTy_of_refines hbase elem v hv, hu⟩
  | slice elem =>
    rw [ofTy] at hu ⊢
    obtain ⟨v, hv, hu⟩ := bind_eq_ok_iff.mp hu
    exact bind_eq_ok_iff.mpr ⟨v, ofTy_of_refines hbase elem v hv, hu⟩
  | reference lifetime mutable target =>
    rw [ofTy] at hu ⊢
    obtain ⟨static, hstatic, hu⟩ := bind_eq_ok_iff.mp hu
    obtain ⟨v, hv, hu⟩ := bind_eq_ok_iff.mp hu
    exact bind_eq_ok_iff.mpr ⟨static, hstatic,
      bind_eq_ok_iff.mpr ⟨v, ofTy_of_refines hbase target v hv, hu⟩⟩
  | paren inner =>
    rw [ofTy] at hu ⊢
    exact ofTy_of_refines hbase inner u hu
  | qualified tokens => exact hu
  | object tokens => exact hu
  | other tokens => exact hu

/-- Types keep their meaning if all paths do, each by itself. -/
theorem ofTys_of_refines (hbase : Refines base base') (ts : List Ty) :
    ∀ us, ofTys base ts = .ok us → ofTys base' ts = .ok us := by
  intro us hus
  cases ts with
  | nil => exact hus
  | cons t ts =>
    rw [ofTys] at hus ⊢
    obtain ⟨u, hu, hus⟩ := bind_eq_ok_iff.mp hus
    obtain ⟨rest, hrest, hus⟩ := bind_eq_ok_iff.mp hus
    exact bind_eq_ok_iff.mpr ⟨u, ofTy_of_refines hbase t u hu,
      bind_eq_ok_iff.mpr ⟨rest, ofTys_of_refines hbase ts rest hrest, hus⟩⟩

/-- The arguments of a path keep their meaning if all paths do. -/
theorem ofLastArgs_of_refines (hbase : Refines base base')
    (segments : List Segment) :
    ∀ whole args, ofLastArgs base whole segments = .ok args →
      ofLastArgs base' whole segments = .ok args := by
  intro whole args hargs
  cases segments with
  | nil => exact hargs
  | cons segment segments =>
    cases segments with
    | nil =>
      cases segment with
      | mk name written => exact ofArgs_of_refines hbase written whole args hargs
    | cons next rest =>
      rw [ofLastArgs] at hargs ⊢
      exact ofLastArgs_of_refines hbase (next :: rest) whole args hargs

/-- The arguments of a segment keep their meaning if all paths do. -/
theorem ofArgs_of_refines (hbase : Refines base base')
    (written : PathArgs) :
    ∀ whole args, ofArgs base whole written = .ok args → ofArgs base' whole written = .ok args := by
  intro whole args hargs
  cases written with
  | none => exact hargs
  | angled turbofish inner trailing =>
    rw [ofArgs] at hargs ⊢
    obtain ⟨resolved, hresolved, hargs⟩ := bind_eq_ok_iff.mp hargs
    exact bind_eq_ok_iff.mpr ⟨resolved, ofTyArgs_of_refines hbase inner whole resolved hresolved,
      hargs⟩
  | call tokens => exact hargs

/-- Generic arguments keep their meaning if all paths do, each by itself. -/
theorem ofTyArgs_of_refines (hbase : Refines base base')
    (written : List TyArg) :
    ∀ whole args, ofTyArgs base whole written = .ok args →
      ofTyArgs base' whole written = .ok args := by
  intro whole args hargs
  cases written with
  | nil => exact hargs
  | cons arg rest =>
    rw [ofTyArgs] at hargs ⊢
    obtain ⟨first, hfirst, hargs⟩ := bind_eq_ok_iff.mp hargs
    obtain ⟨others, hothers, hargs⟩ := bind_eq_ok_iff.mp hargs
    exact bind_eq_ok_iff.mpr ⟨first, ofTyArg_of_refines hbase arg whole first hfirst,
      bind_eq_ok_iff.mpr ⟨others, ofTyArgs_of_refines hbase rest whole others hothers, hargs⟩⟩

/-- A generic argument keeps its meaning if all paths do. -/
theorem ofTyArg_of_refines (hbase : Refines base base') (written : TyArg) :
    ∀ whole arg, ofTyArg base whole written = .ok arg → ofTyArg base' whole written = .ok arg := by
  intro whole arg harg
  cases written with
  | type t =>
    rw [ofTyArg] at harg ⊢
    obtain ⟨u, hu, harg⟩ := bind_eq_ok_iff.mp harg
    exact bind_eq_ok_iff.mpr ⟨u, ofTy_of_refines hbase t u hu, harg⟩
  | lifetime name => exact harg
  | const value => exact harg
  | binding tokens => exact harg

end

end ResolvedTy

end ServiceDispatch
