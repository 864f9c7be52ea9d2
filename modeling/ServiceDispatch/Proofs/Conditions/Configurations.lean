import ServiceDispatch.CfgPredicate

/-!
# Configurations

A configuration says which options are set and which values they have. A predicate that is found to
require the option `test` holds in no configuration without it. Among the configurations without
`test` there is a largest one, in which everything else holds. A predicate that cannot be made false
by setting an option holds in some configuration without `test` exactly if it holds in the largest
one, and there it is false exactly if it is found to require `test`.
-/

namespace ServiceDispatch

/-- What a crate is compiled for. -/
structure Configuration where
  /-- Whether an option is set. -/
  options : String → Bool
  /-- Whether an option has a value; it may have several ones. -/
  values : String → String → Bool
  /-- Whether a predicate of any other form holds. -/
  others : Bool

/-- The configuration without the option `test` in which everything else holds. -/
def Configuration.allButTest : Configuration where
  options name := name != "test"
  values _ _ := true
  others := true

namespace CfgPredicate

mutual

/-- Whether a predicate holds in a configuration. -/
def holds (config : Configuration) : CfgPredicate → Bool
  | .option name => config.options name
  | .keyValue key value => config.values key value
  | .all predicates => allHold config predicates
  | .any predicates => someHolds config predicates
  | .not predicates => !allHold config predicates
  | .unknown => config.others

/-- Whether each of several predicates holds. -/
def allHold (config : Configuration) : List CfgPredicate → Bool
  | [] => true
  | p :: ps => p.holds config && allHold config ps

/-- Whether one of several predicates holds. -/
def someHolds (config : Configuration) : List CfgPredicate → Bool
  | [] => false
  | p :: ps => p.holds config || someHolds config ps

end

/-- Whether a predicate is false in all configurations without the option `test`. -/
def HoldsOnlyForTests (p : CfgPredicate) : Prop :=
  ∀ config : Configuration, config.options "test" = false → p.holds config = false

mutual

/-- Whether a predicate is built from options and their values by `all` and by `any` of at least one
predicate. -/
def IsPositive : CfgPredicate → Bool
  | .option _ => true
  | .keyValue _ _ => true
  | .all predicates => allPositive predicates
  | .any predicates => !predicates.isEmpty && allPositive predicates
  | .not _ => false
  | .unknown => false

/-- Whether several predicates are built in this way. -/
def allPositive : List CfgPredicate → Bool
  | [] => true
  | p :: ps => p.IsPositive && allPositive ps

end

/-- Several predicates are built in this way if each of them is. -/
theorem allPositive_iff {ps : List CfgPredicate} :
    allPositive ps ↔ ∀ p ∈ ps, p.IsPositive := by
  induction ps with
  | nil => exact ⟨fun _ _ h => absurd h List.not_mem_nil, fun _ => rfl⟩
  | cons p ps ih => rw [allPositive, Bool.and_eq_true, List.forall_mem_cons, ih]

/-! ## Soundness -/

section Soundness

variable {config : Configuration}

mutual

/-- A predicate that requires `test` is false without it, whatever else the configuration says. The
induction goes into the parts of the predicate. -/
theorem holds_eq_false (htest : config.options "test" = false) :
    ∀ p : CfgPredicate, p.requiresTest → p.holds config = false
  | .option name, hrequires => by
    rw [requiresTest, beq_iff_eq] at hrequires
    rw [holds, hrequires, htest]
  | .keyValue _ _, hrequires => nomatch hrequires
  | .all predicates, hrequires => allHold_eq_false htest predicates hrequires
  | .any predicates, hrequires => by
    rw [requiresTest, Bool.and_eq_true] at hrequires
    exact someHolds_eq_false htest predicates hrequires.2
  | .not _, hrequires => nomatch hrequires
  | .unknown, hrequires => nomatch hrequires

/-- One predicate that requires `test` is enough to make all of them together false. -/
theorem allHold_eq_false (htest : config.options "test" = false) :
    ∀ ps : List CfgPredicate, someRequiresTest ps → allHold config ps = false
  | [], hrequires => nomatch hrequires
  | p :: ps, hrequires => by
    rw [someRequiresTest, Bool.or_eq_true] at hrequires
    rw [allHold, Bool.and_eq_false_iff]
    exact hrequires.imp (holds_eq_false htest p) (allHold_eq_false htest ps)

/-- None of several predicates holds that require `test`, in a configuration without it. -/
theorem someHolds_eq_false (htest : config.options "test" = false) :
    ∀ ps : List CfgPredicate, allRequireTest ps → someHolds config ps = false
  | [], _ => rfl
  | p :: ps, hrequires => by
    rw [allRequireTest, Bool.and_eq_true] at hrequires
    rw [someHolds, Bool.or_eq_false_iff]
    exact ⟨holds_eq_false htest p hrequires.1, someHolds_eq_false htest ps hrequires.2⟩

end

end Soundness

/-! ## Completeness -/

mutual

/-- In the largest configuration without `test`, a predicate that is built from options, `all` and
`any` holds unless it requires `test`. -/
theorem holds_allButTest :
    ∀ p : CfgPredicate, p.IsPositive → p.holds .allButTest = !p.requiresTest
  | .option _, _ => rfl
  | .keyValue _ _, _ => rfl
  | .all predicates, hpositive => allHold_allButTest predicates hpositive
  | .any predicates, hpositive => by
    rw [IsPositive, Bool.and_eq_true] at hpositive
    rw [holds, requiresTest, hpositive.1, Bool.true_and]
    exact someHolds_allButTest predicates hpositive.2
  | .not _, hpositive => nomatch hpositive
  | .unknown, hpositive => nomatch hpositive

/-- Several predicates hold together unless one of them requires `test`. -/
theorem allHold_allButTest :
    ∀ ps : List CfgPredicate, allPositive ps →
      allHold .allButTest ps = !someRequiresTest ps
  | [], _ => rfl
  | p :: ps, hpositive => by
    rw [allPositive, Bool.and_eq_true] at hpositive
    rw [allHold, someRequiresTest, holds_allButTest p hpositive.1,
      allHold_allButTest ps hpositive.2, Bool.not_or]

/-- One of several predicates holds unless each of them requires `test`. -/
theorem someHolds_allButTest :
    ∀ ps : List CfgPredicate, allPositive ps →
      someHolds .allButTest ps = !allRequireTest ps
  | [], _ => rfl
  | p :: ps, hpositive => by
    rw [allPositive, Bool.and_eq_true] at hpositive
    rw [someHolds, allRequireTest, holds_allButTest p hpositive.1,
      someHolds_allButTest ps hpositive.2, Bool.not_and]

end

/-- A predicate that is built from options, `all` and `any` is found to require `test` if no
configuration without `test` makes it true: the largest one does not. -/
theorem HoldsOnlyForTests.requiresTest {p : CfgPredicate} (htests : p.HoldsOnlyForTests)
    (hpositive : p.IsPositive) : p.requiresTest := by
  have hfalse := htests .allButTest rfl
  rw [holds_allButTest p hpositive, Bool.not_eq_false'] at hfalse
  exact hfalse

/-- A predicate that is found to require `test` is false in all configurations without it. The
converse is true of predicates without `not` and without an empty `any`; of others it may fail,
since neither of these is ever found to require anything. -/
theorem requiresTest_sound_and_complete (p : CfgPredicate) :
    (p.requiresTest → p.HoldsOnlyForTests) ∧
      (p.IsPositive → (p.requiresTest ↔ p.HoldsOnlyForTests)) := by
  have hsound : p.requiresTest → p.HoldsOnlyForTests :=
    fun hrequires _ htest => holds_eq_false htest p hrequires
  exact ⟨hsound, fun hpositive => ⟨hsound, fun htests => htests.requiresTest hpositive⟩⟩

/-- No predicate with an empty `any` is found to require `test` for it, although it never holds. -/
example : HoldsOnlyForTests (.any []) ∧ requiresTest (.any []) = false := ⟨fun _ _ => rfl, rfl⟩

/-! ## Attributes -/

/-- One of several predicates requires `test` exactly if it is an element that does. -/
theorem someRequiresTest_eq_any (ps : List CfgPredicate) :
    someRequiresTest ps = ps.any requiresTest := by
  induction ps with
  | nil => rfl
  | cons p ps ih => rw [someRequiresTest, List.any_cons, ih]

end CfgPredicate

/-- The predicate under which an item with some attributes is compiled: those of all its `cfg`
attributes hold. -/
def compilation (attributes : List Attribute) : CfgPredicate :=
  .all (attributes.filterMap Attribute.cfg?)

/-- An item is for tests only if what it is compiled under is found to require `test`. -/
theorem isTestOnly_eq_requiresTest (attributes : List Attribute) :
    isTestOnly attributes = (compilation attributes).requiresTest := by
  rw [compilation, CfgPredicate.requiresTest, CfgPredicate.someRequiresTest_eq_any,
    List.any_filterMap]
  rfl

/-- An item that is taken for one of tests is not compiled without `test`. An item that is compiled
only for tests is taken for one, unless a predicate of its attributes has a `not` or an empty `any`
or another form. -/
theorem isTestOnly_sound_and_complete (attributes : List Attribute) :
    (isTestOnly attributes → (compilation attributes).HoldsOnlyForTests) ∧
      ((∀ attr ∈ attributes, ∀ p, attr.cfg? = some p → p.IsPositive) →
        (compilation attributes).HoldsOnlyForTests → isTestOnly attributes) := by
  rw [isTestOnly_eq_requiresTest]
  refine ⟨fun hrequires _ htest => CfgPredicate.holds_eq_false htest _ hrequires,
    fun hpositive htests => htests.requiresTest ?_⟩
  rw [compilation, CfgPredicate.IsPositive, CfgPredicate.allPositive_iff]
  intro p hp
  obtain ⟨attr, hattr, hcfg⟩ := List.mem_filterMap.mp hp
  exact hpositive attr hattr p hcfg

end ServiceDispatch
