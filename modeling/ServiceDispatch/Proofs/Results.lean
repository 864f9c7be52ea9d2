import Mathlib.Data.List.Forall2

/-!
# Results that may be errors

When a result that is changed, or a list of results, succeeds or fails. A list of results fails
with its first error, and otherwise has one value for each element.
-/

namespace ServiceDispatch.Results

variable {α β ε : Type}

/-- A changed result is an error if the result is, and with the same error. The change applies to
values only. -/
theorem map_eq_error_iff {x : Except ε α} {g : α → β} {e : ε} :
    x.map g = .error e ↔ x = .error e := by
  cases x with
  | error e' =>
    exact ⟨fun h => congrArg _ (Except.error.inj h), fun h => congrArg _ (Except.error.inj h)⟩
  | ok a => exact ⟨(nomatch ·), (nomatch ·)⟩

/-- A changed result is a value if the result is one that is changed to it. -/
theorem map_eq_ok_iff {x : Except ε α} {g : α → β} {b : β} :
    x.map g = .ok b ↔ ∃ a, x = .ok a ∧ g a = b := by
  cases x with
  | error e => exact ⟨(nomatch ·), fun ⟨_, h, _⟩ => nomatch h⟩
  | ok a =>
    constructor
    · intro hb
      exact ⟨a, rfl, Except.ok.inj hb⟩
    · rintro ⟨a', ha, rfl⟩
      rw [Except.ok.inj ha]
      rfl

/-- One result after another is an error if the first or the second one is. -/
theorem bind_eq_error_iff {x : Except ε α} {f : α → Except ε β} {e : ε} :
    x >>= f = .error e ↔ x = .error e ∨ ∃ a, x = .ok a ∧ f a = .error e := by
  cases x with
  | error e' =>
    constructor
    · intro he
      exact .inl (congrArg _ (Except.error.inj he))
    · rintro (he | ⟨a, ha, -⟩)
      · exact congrArg _ (Except.error.inj he)
      · exact nomatch ha
  | ok a =>
    constructor
    · intro he
      exact .inr ⟨a, rfl, he⟩
    · rintro (he | ⟨a', ha, he⟩)
      · exact nomatch he
      · rwa [← Except.ok.inj ha] at he

/-- One result after another is a value if both are. A proof about a monadic function takes it apart
with this lemma and does not unfold it. -/
theorem bind_eq_ok_iff {x : Except ε α} {f : α → Except ε β} {b : β} :
    x >>= f = .ok b ↔ ∃ a, x = .ok a ∧ f a = .ok b := by
  cases x with
  | error e => exact ⟨(nomatch ·), fun ⟨_, h, _⟩ => nomatch h⟩
  | ok a =>
    constructor
    · intro hb
      exact ⟨a, rfl, hb⟩
    · rintro ⟨a', ha, hb⟩
      rwa [← Except.ok.inj ha] at hb

/-! ## Lists -/

variable {f : α → Except ε β}

/-- A list of results is one value for each element, and a value of the whole list only if no
element fails. -/
theorem mapM_eq_ok_iff {xs : List α} {ys : List β} :
    xs.mapM f = .ok ys ↔ List.Forall₂ (fun x y => f x = .ok y) xs ys := by
  induction xs generalizing ys with
  | nil =>
    rw [List.forall₂_nil_left_iff]
    exact ⟨fun h => (Except.ok.inj h).symm, fun h => h ▸ rfl⟩
  | cons x xs ih =>
    rw [List.forall₂_cons_left_iff, List.mapM_cons, bind_eq_ok_iff]
    constructor
    · rintro ⟨y, hy, hrest⟩
      obtain ⟨rest, hrest, hys⟩ := bind_eq_ok_iff.mp hrest
      exact ⟨y, rest, hy, ih.mp hrest, (Except.ok.inj hys).symm⟩
    · rintro ⟨y, rest, hy, hrest, rfl⟩
      exact ⟨y, hy, bind_eq_ok_iff.mpr ⟨rest, ih.mpr hrest, rfl⟩⟩

/-- Each value of a list of results is that of an element. -/
theorem exists_mem_of_mapM_eq_ok {xs : List α} {ys : List β} (hys : xs.mapM f = .ok ys) {y : β}
    (hy : y ∈ ys) : ∃ x ∈ xs, f x = .ok y := by
  have hvalues := mapM_eq_ok_iff.mp hys
  clear hys
  induction hvalues with
  | nil => exact absurd hy List.not_mem_nil
  | @cons x first xs ys hfirst hrest ih =>
    rcases List.mem_cons.mp hy with rfl | hy
    · exact ⟨x, List.mem_cons_self, hfirst⟩
    · obtain ⟨x', hx', hvalue⟩ := ih hy
      exact ⟨x', List.mem_cons_of_mem _ hx', hvalue⟩

/-- Each element of a list of results has one of the values. -/
theorem exists_of_mem_of_mapM_eq_ok {xs : List α} {ys : List β} (hys : xs.mapM f = .ok ys) {x : α}
    (hx : x ∈ xs) : ∃ y ∈ ys, f x = .ok y := by
  have hvalues := mapM_eq_ok_iff.mp hys
  clear hys
  induction hvalues with
  | nil => exact absurd hx List.not_mem_nil
  | @cons first y xs ys hfirst hrest ih =>
    rcases List.mem_cons.mp hx with rfl | hx
    · exact ⟨y, List.mem_cons_self, hfirst⟩
    · obtain ⟨y', hy', hvalue⟩ := ih hx
      exact ⟨y', List.mem_cons_of_mem _ hy', hvalue⟩

/-- A list of results fails with its first error. The elements after it are not asked, so their
errors do not matter. -/
theorem mapM_eq_error_iff {xs : List α} {e : ε} :
    xs.mapM f = .error e ↔
      ∃ front x back, xs = front ++ x :: back ∧ f x = .error e ∧
        ∀ other ∈ front, ∀ e', f other ≠ .error e' := by
  induction xs with
  | nil => exact ⟨(nomatch ·), fun ⟨front, x, back, h, _⟩ => by simp at h⟩
  | cons x xs ih =>
    have hrest (y : β) : (do return y :: (← xs.mapM f)) = Except.error e ↔ xs.mapM f = .error e :=
      map_eq_error_iff
    rw [List.mapM_cons, bind_eq_error_iff]
    constructor
    · rintro (hfirst | ⟨y, hy, herror⟩)
      · exact ⟨[], x, xs, rfl, hfirst, fun _ h => absurd h List.not_mem_nil⟩
      · obtain ⟨front, z, back, rfl, hz, hfront⟩ := ih.mp ((hrest y).mp herror)
        refine ⟨x :: front, z, back, rfl, hz, List.forall_mem_cons.mpr ⟨?_, hfront⟩⟩
        intro e' he'
        rw [hy] at he'
        exact nomatch he'
    · rintro ⟨front, z, back, hsplit, hz, hfront⟩
      cases front with
      | nil =>
        obtain ⟨rfl, rfl⟩ := List.cons.inj hsplit
        exact .inl hz
      | cons z' front =>
        obtain ⟨rfl, rfl⟩ := List.cons.inj hsplit
        obtain ⟨hfirst, hfront⟩ := List.forall_mem_cons.mp hfront
        cases hy : f x with
        | error e' => exact absurd hy (hfirst e')
        | ok y => exact .inr ⟨y, rfl, (hrest y).mpr (ih.mpr ⟨front, z, back, rfl, hz, hfront⟩)⟩

end ServiceDispatch.Results
