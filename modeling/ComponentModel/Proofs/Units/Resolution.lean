import ComponentModel.Proofs.Units.Meaning
import Mathlib.Order.WellFoundedSet

/-!
# Which units can be resolved

Resolving definitions always ends, since a chain of definitions that are being resolved repeats none
of them. It succeeds exactly if all definitions that count refer to names that are known, have
prefixes that are known, and none of them leads back to itself. What has been resolved on the way is
only kept to save work: a name gets what the plain recursion gives it, and where no two definitions
share a name their order does not matter.
-/

namespace ComponentModel.Units

open Relation (ReflTransGen TransGen)

/-! ## The recursion without a bound -/

/-- What there is to resolve: a name, or the terms of a definition that are left behind units. -/
inductive Task where
  | name (name : String)
  | terms (owner : String) (rest : List UnitTerm) (units : Canonical)

/-- What becomes of a task while the definitions of a chain are being resolved. Only a definition
outside of the chain is opened, and what it gives is kept. -/
inductive Resolves (definitions : List UnitsDefinition) :
    List String → Task → Resolved → Except UnitsError (Canonical × Resolved) → Prop
  | known {chain : List String} {name : String} {resolved : Resolved} {units : Canonical}
      (found : resolved.lookup name = some units) :
      Resolves definitions chain (.name name) resolved (.ok (units, resolved))
  | builtin {chain : List String} {name : String} {resolved : Resolved} {units : Canonical}
      (unknown : resolved.lookup name = none) (undefined : effective? definitions name = none)
      (isBuiltin : builtin? name = some units) :
      Resolves definitions chain (.name name) resolved (.ok (units, resolved))
  | missing {chain : List String} {name : String} {resolved : Resolved}
      (unknown : resolved.lookup name = none) (undefined : effective? definitions name = none)
      (missing : builtin? name = none) :
      Resolves definitions chain (.name name) resolved (.error (.unknown name))
  | circular {chain : List String} {name : String} {resolved : Resolved}
      {definition : UnitsDefinition} (unknown : resolved.lookup name = none)
      (defined : effective? definitions name = some definition) (inside : name ∈ chain) :
      Resolves definitions chain (.name name) resolved (.error (.circular (chain ++ [name])))
  | base {chain : List String} {name : String} {resolved : Resolved}
      {definition : UnitsDefinition} (unknown : resolved.lookup name = none)
      (defined : effective? definitions name = some definition) (outside : name ∉ chain)
      (isBase : definition.isBase) :
      Resolves definitions chain (.name name) resolved
        (.ok (.base name, (name, .base name) :: resolved))
  | product {chain : List String} {name : String} {resolved : Resolved}
      {definition : UnitsDefinition} {outcome : Except UnitsError (Canonical × Resolved)}
      (unknown : resolved.lookup name = none)
      (defined : effective? definitions name = some definition) (outside : name ∉ chain)
      (isProduct : definition.isBase = false)
      (multiplied : Resolves definitions (chain ++ [name])
        (.terms name definition.units .dimensionless) resolved outcome) :
      Resolves definitions chain (.name name) resolved
        (outcome >>= fun found => .ok (found.1, (name, found.1) :: found.2))
  | done {chain : List String} {owner : String} {units : Canonical} {resolved : Resolved} :
      Resolves definitions chain (.terms owner [] units) resolved (.ok (units, resolved))
  | refused {chain : List String} {owner : String} {term : UnitTerm} {rest : List UnitTerm}
      {units : Canonical} {resolved : Resolved} {fault : UnitsError}
      (refused : Resolves definitions chain (.name term.reference) resolved (.error fault)) :
      Resolves definitions chain (.terms owner (term :: rest) units) resolved (.error fault)
  | unscaled {chain : List String} {owner : String} {term : UnitTerm} {rest : List UnitTerm}
      {units reference : Canonical} {resolved middle : Resolved} {fault : UnitsError}
      (found : Resolves definitions chain (.name term.reference) resolved (.ok (reference, middle)))
      (unscaled : powerOfTen owner term = .error fault) :
      Resolves definitions chain (.terms owner (term :: rest) units) resolved (.error fault)
  | term {chain : List String} {owner : String} {term : UnitTerm} {rest : List UnitTerm}
      {units reference : Canonical} {resolved middle : Resolved} {power : Int}
      {outcome : Except UnitsError (Canonical × Resolved)}
      (found : Resolves definitions chain (.name term.reference) resolved (.ok (reference, middle)))
      (scaled : powerOfTen owner term = .ok power)
      (later : Resolves definitions chain
        (.terms owner rest (units.accumulate reference power term.power term.factor)) middle
        outcome) :
      Resolves definitions chain (.terms owner (term :: rest) units) resolved outcome

/-- What becomes of resolving definitions one after the other, each with a chain of its own. -/
inductive ResolvesAll (definitions : List UnitsDefinition) :
    List UnitsDefinition → Resolved → Except UnitsError Resolved → Prop
  | nil {resolved : Resolved} : ResolvesAll definitions [] resolved (.ok resolved)
  | refused {definition : UnitsDefinition} {rest : List UnitsDefinition} {resolved : Resolved}
      {fault : UnitsError}
      (refused : Resolves definitions [] (.name definition.name) resolved (.error fault)) :
      ResolvesAll definitions (definition :: rest) resolved (.error fault)
  | cons {definition : UnitsDefinition} {rest : List UnitsDefinition} {units : Canonical}
      {resolved middle : Resolved} {outcome : Except UnitsError Resolved}
      (found : Resolves definitions [] (.name definition.name) resolved (.ok (units, middle)))
      (later : ResolvesAll definitions rest middle outcome) :
      ResolvesAll definitions (definition :: rest) resolved outcome

section

variable {definitions others : List UnitsDefinition} {name owner : String} {units : Canonical}
  {chain : List String} {task : Task} {resolved : Resolved}

/-- The recursion has one outcome at most. -/
theorem Resolves.unique {one other : Except UnitsError (Canonical × Resolved)}
    (first : Resolves definitions chain task resolved one)
    (second : Resolves definitions chain task resolved other) : one = other := by
  induction first generalizing other with
  | known found => cases second <;> simp_all
  | builtin unknown undefined isBuiltin => cases second <;> simp_all
  | missing unknown undefined missing => cases second <;> simp_all
  | circular unknown defined inside => cases second <;> simp_all
  | base unknown defined outside isBase => cases second <;> simp_all
  | product unknown defined outside isProduct _ ih =>
      cases second with
      | known found => cases unknown.symm.trans found
      | builtin _ undefined => cases undefined.symm.trans defined
      | missing _ undefined => cases undefined.symm.trans defined
      | circular _ _ inside => exact absurd inside outside
      | base _ definedOther _ isBase =>
          obtain rfl := Option.some.inj (defined.symm.trans definedOther)
          cases isProduct.symm.trans isBase
      | product _ definedOther _ _ multiplied =>
          obtain rfl := Option.some.inj (defined.symm.trans definedOther)
          rw [ih multiplied]
  | done => cases second; rfl
  | refused _ ih =>
      cases second with
      | refused refused => exact congrArg Except.error (Except.error.inj (ih refused))
      | unscaled found => cases ih found
      | term found => cases ih found
  | unscaled _ unscaled ih =>
      cases second with
      | refused refused => cases ih refused
      | unscaled _ other => exact congrArg _ (Except.error.inj (unscaled.symm.trans other))
      | term _ scaled => cases unscaled.symm.trans scaled
  | term _ scaled _ ihFound ihLater =>
      cases second with
      | refused refused => cases ihFound refused
      | unscaled _ unscaled => cases unscaled.symm.trans scaled
      | term found scaledOther later =>
          obtain ⟨rfl, rfl⟩ := Prod.mk.inj (Except.ok.inj (ihFound found))
          obtain rfl := Except.ok.inj (scaled.symm.trans scaledOther)
          exact ihLater later

theorem ResolvesAll.unique {rest : List UnitsDefinition} {one other : Except UnitsError Resolved}
    (first : ResolvesAll definitions rest resolved one)
    (second : ResolvesAll definitions rest resolved other) : one = other := by
  induction first generalizing other with
  | nil => cases second; rfl
  | refused refused =>
      cases second with
      | refused refusedOther => exact congrArg _ (Except.error.inj (refused.unique refusedOther))
      | cons found => cases refused.unique found
  | cons found _ ih =>
      cases second with
      | refused refused => cases refused.unique found
      | cons foundOther later =>
          obtain ⟨rfl, rfl⟩ := Prod.mk.inj (Except.ok.inj (found.unique foundOther))
          exact ih later

/-- Terms are resolved one after the other. -/
theorem resolves_resolveTerms
    {resolve : String → Resolved → Except UnitsError (Canonical × Resolved)}
    {terms : List UnitTerm}
    (each : ∀ term ∈ terms, ∀ resolved,
      Resolves definitions chain (.name term.reference) resolved (resolve term.reference resolved))
    (units : Canonical) (resolved : Resolved) :
    Resolves definitions chain (.terms owner terms units) resolved
      (resolveTerms resolve owner terms units resolved) := by
  induction terms generalizing units resolved with
  | nil => exact .done
  | cons term rest ih =>
      obtain ⟨here, later⟩ := List.forall_mem_cons.mp each
      have resolves := here resolved
      rw [resolveTerms_cons]
      cases found : resolve term.reference resolved with
      | error fault => exact .refused (found ▸ resolves)
      | ok result =>
          rw [found] at resolves
          cases scaled : powerOfTen owner term with
          | error fault => exact .unscaled resolves scaled
          | ok power => exact .term resolves scaled (ih later _ _)

/-- A recursion that may be deeper than there are definitions is the one without a bound. -/
theorem resolves_resolveName {depth : Nat} (room : LeavesRoom definitions chain depth)
    (name : String) (resolved : Resolved) :
    Resolves definitions chain (.name name) resolved
      (resolveName definitions depth chain name resolved) := by
  induction depth generalizing chain name resolved with
  | zero => exact absurd room.depth_pos (Nat.lt_irrefl 0)
  | succ depth ih =>
      cases known : resolved.lookup name with
      | some found =>
          simp only [resolveName, known]
          exact .known known
      | none =>
          cases isDefined : effective? definitions name with
          | none =>
              simp only [resolveName, known, isDefined]
              cases isBuiltin : builtin? name with
              | some found => exact .builtin known isDefined isBuiltin
              | none => exact .missing known isDefined isBuiltin
          | some definition =>
              rw [resolveName_of_defined known isDefined]
              split
              case isTrue inside => exact .circular known isDefined (by simpa using inside)
              case isFalse outside =>
                have outside : name ∉ chain := by simpa using outside
                split
                case isTrue isBase => exact .base known isDefined outside isBase
                case isFalse isProduct =>
                  exact .product known isDefined outside (by simpa using isProduct)
                    (resolves_resolveTerms
                      (fun term _ => ih (room.append outside isDefined) term.reference) _ _)

theorem resolvesAll_resolveAll (definitions rest : List UnitsDefinition) (resolved : Resolved) :
    ResolvesAll definitions rest resolved (resolveAll definitions rest resolved) := by
  induction rest generalizing resolved with
  | nil => exact .nil
  | cons definition rest ih =>
      have resolves : Resolves definitions [] (.name definition.name) resolved
          (resolveName definitions (definitions.length + 1) [] definition.name resolved) :=
        resolves_resolveName .start _ _
      rw [resolveAll]
      cases found :
          resolveName definitions (definitions.length + 1) [] definition.name resolved with
      | error fault => exact .refused (found ▸ resolves)
      | ok result => exact .cons (found ▸ resolves) (ih _)

/-! ## Definitions without a fault -/

/-- The definitions that count refer to names that are known and have prefixes that are known, and
none leads back to itself. -/
structure WellDefined (definitions : List UnitsDefinition) : Prop where
  known {name : String} {definition : UnitsDefinition}
    (defined : effective? definitions name = some definition) :
    ∀ term ∈ definition.units, term.reference ∈ definitions.map UnitsDefinition.name ∨
      isBuiltin term.reference
  scaled {name : String} {definition : UnitsDefinition}
    (defined : effective? definitions name = some definition) :
    ∀ term ∈ definition.units, ∃ power, powerOfTen name term = .ok power
  acyclic (name : String) : ¬TransGen (RefersTo definitions) name name

/-- Terms can be multiplied if all their prefixes are known. -/
theorem exists_multiply_iff {meaning : String → Canonical} {terms : List UnitTerm}
    (units : Canonical) :
    (∃ result, multiply meaning owner terms units = .ok result) ↔
      ∀ term ∈ terms, ∃ power, powerOfTen owner term = .ok power := by
  induction terms generalizing units with
  | nil => simp [multiply]
  | cons term rest ih =>
      rw [List.forall_mem_cons, multiply]
      cases scaled : powerOfTen owner term with
      | error fault => simp [Bind.bind, Except.bind]
      | ok power => simpa [Bind.bind, Except.bind] using ih _

namespace Denotes

/-- What has a meaning is defined or built in. -/
theorem known (denotes : Denotes definitions name units) :
    name ∈ definitions.map UnitsDefinition.name ∨ isBuiltin name := by
  cases denotes with
  | builtin _ known => exact .inr (Option.isSome_of_eq_some known)
  | base defined => exact .inl (mem_names_of_effective? defined)
  | product defined => exact .inl (mem_names_of_effective? defined)

/-- The terms of what has a meaning refer to what has one, behind prefixes that are known. -/
theorem terms {definition : UnitsDefinition} (denotes : Denotes definitions name units)
    (defined : effective? definitions name = some definition) :
    ∀ term ∈ definition.units, (∃ inner, Denotes definitions term.reference inner) ∧
      ∃ power, powerOfTen name term = .ok power := by
  intro term isTerm
  cases denotes with
  | builtin undefined => cases undefined.symm.trans defined
  | base definedOther isBase =>
      obtain rfl := Option.some.inj (defined.symm.trans definedOther)
      rw [List.isEmpty_iff.mp isBase] at isTerm
      cases isTerm
  | product definedOther _ each multiplied =>
      obtain rfl := Option.some.inj (defined.symm.trans definedOther)
      exact ⟨⟨_, each term isTerm⟩, (exists_multiply_iff _).mp ⟨_, multiplied⟩ term isTerm⟩

end Denotes

namespace WellDefined

/-- Where every definition has a meaning, there is no fault in them. -/
theorem of_denotes
    (each : ∀ definition ∈ definitions, ∃ units, Denotes definitions definition.name units) :
    WellDefined definitions := by
  have denotes {name : String} {definition : UnitsDefinition}
      (defined : effective? definitions name = some definition) :
      ∃ units, Denotes definitions name units := by
    obtain ⟨other, isDefinition, rfl⟩ :=
      List.mem_map.mp (mem_names_of_effective? defined)
    exact each other isDefinition
  refine ⟨fun defined term isTerm => ?_, fun defined term isTerm => ?_, fun name cyclic => ?_⟩
  · obtain ⟨units, means⟩ := denotes defined
    obtain ⟨⟨inner, meansInner⟩, -⟩ := means.terms defined term isTerm
    exact meansInner.known
  · obtain ⟨units, means⟩ := denotes defined
    exact (means.terms defined term isTerm).2
  · obtain ⟨inner, ⟨definition, defined, -⟩, -⟩ := TransGen.head'_iff.mp cyclic
    obtain ⟨units, means⟩ := denotes defined
    exact means.irrefl cyclic

/-- There are only so many definitions, so that following references ends. -/
theorem wellFoundedOn (wellDefined : WellDefined definitions) :
    {name | name ∈ definitions.map UnitsDefinition.name}.WellFoundedOn
      fun inner outer => TransGen (RefersTo definitions) outer inner := by
  have order : IsStrictOrder String
      fun inner outer => TransGen (RefersTo definitions) outer inner :=
    { irrefl := wellDefined.acyclic
      trans := fun _ _ _ first second => second.trans first }
  exact (List.finite_toSet _).wellFoundedOn

theorem exists_denotes (wellDefined : WellDefined definitions)
    (defined : name ∈ definitions.map UnitsDefinition.name) :
    ∃ units, Denotes definitions name units := by
  refine wellDefined.wellFoundedOn.induction
    (P := fun name => ∃ units, Denotes definitions name units) defined fun name defined ih => ?_
  obtain ⟨definition, isDefined⟩ := Option.isSome_iff_exists.mp (isSome_effective?.mpr defined)
  cases isBase : definition.isBase with
  | true => exact ⟨_, .base isDefined isBase⟩
  | false =>
      have each : ∀ term ∈ definition.units,
          ∃ units, Denotes definitions term.reference units := by
        intro term isTerm
        by_cases inside : term.reference ∈ definitions.map UnitsDefinition.name
        · exact ih term.reference inside (.single ⟨definition, isDefined, term, isTerm, rfl⟩)
        · have known := (wellDefined.known isDefined term isTerm).resolve_left inside
          obtain ⟨units, known⟩ := Option.isSome_iff_exists.mp known
          exact ⟨units, .builtin (effective?_eq_none_iff.mpr inside) known⟩
      obtain ⟨meaning, means⟩ := Denotes.exists_meaning each
      obtain ⟨units, multiplied⟩ :=
        (exists_multiply_iff .dimensionless).mpr (wellDefined.scaled isDefined)
      exact ⟨units, .product isDefined isBase means multiplied⟩

/-- Following references from any name ends. -/
theorem grounded (wellDefined : WellDefined definitions) (name : String) :
    Acc (fun inner outer => RefersTo definitions outer inner) name := by
  by_cases defined : name ∈ definitions.map UnitsDefinition.name
  · obtain ⟨units, denotes⟩ := wellDefined.exists_denotes defined
    exact denotes.grounded
  · exact .intro _ fun _ ⟨_, isDefined, _⟩ => absurd (mem_names_of_effective? isDefined) defined

end WellDefined

namespace Registry

theorem exists_ofDefinitions_iff_wellDefined :
    (∃ registry, ofDefinitions definitions = .ok registry) ↔ WellDefined definitions := by
  rw [exists_ofDefinitions_iff]
  exact ⟨WellDefined.of_denotes, fun wellDefined definition isDefinition =>
    wellDefined.exists_denotes (List.mem_map_of_mem isDefinition)⟩

end Registry

/-! ## The plain recursion -/

section

variable (definitions : List UnitsDefinition) (recursion : String → Except UnitsError Canonical)

/-- Multiply units by terms in order, where the recursion is asked for every reference. -/
def recurTerms (owner : String) : List UnitTerm → Canonical → Except UnitsError Canonical
  | [], units => .ok units
  | term :: rest, units => do
      let reference ← recursion term.reference
      let power ← powerOfTen owner term
      recurTerms owner rest (units.accumulate reference power term.power term.factor)

/-- What the plain recursion gives for a name, where it is asked anew for every reference. -/
def recur (name : String) : Except UnitsError Canonical :=
  match effective? definitions name with
  | none =>
      match builtin? name with
      | some units => .ok units
      | none => .error (.unknown name)
  | some definition =>
      if definition.isBase then .ok (.base name)
      else recurTerms recursion name definition.units .dimensionless

end

theorem recurTerms_congr {one other : String → Except UnitsError Canonical}
    {terms : List UnitTerm} (same : ∀ term ∈ terms, one term.reference = other term.reference)
    (units : Canonical) :
    recurTerms one owner terms units = recurTerms other owner terms units := by
  induction terms generalizing units with
  | nil => rfl
  | cons term rest ih =>
      obtain ⟨here, later⟩ := List.forall_mem_cons.mp same
      simp only [recurTerms, here, ih later]

/-- Where every reference has a meaning, the recursion multiplies these meanings. -/
theorem recurTerms_ok (meaning : String → Canonical) (terms : List UnitTerm) (units : Canonical) :
    recurTerms (fun name => .ok (meaning name)) owner terms units =
      multiply meaning owner terms units := by
  induction terms generalizing units with
  | nil => rfl
  | cons term rest ih =>
      rw [recurTerms, multiply]
      exact congrArg _ (funext fun power => ih _)

/-- The plain recursion looks no further than the references of a definition. -/
theorem recur_congr {one other : String → Except UnitsError Canonical}
    (same : ∀ inner, RefersTo definitions name inner → one inner = other inner) :
    recur definitions one name = recur definitions other name := by
  cases defined : effective? definitions name with
  | none => simp only [recur, defined]
  | some definition =>
      simp only [recur, defined]
      rw [recurTerms_congr fun term isTerm => same _ ⟨definition, defined, term, isTerm, rfl⟩]

namespace Registry

variable {registry : Registry}

theorem canonical_eq_ok_iff (built : ofDefinitions definitions = .ok registry) :
    registry.canonical name = .ok units ↔ Denotes definitions name units := by
  rw [← canonical?_eq_some_iff built, canonical]
  cases registry.canonical? name <;> simp

/-- What is registered for a name is what the plain recursion gives for it. -/
theorem canonical_eq_recur (built : ofDefinitions definitions = .ok registry) :
    registry.canonical = recur definitions registry.canonical := by
  funext name
  have wellDefined := exists_ofDefinitions_iff_wellDefined.mp ⟨registry, built⟩
  by_cases means : ∃ units, Denotes definitions name units
  · obtain ⟨units, denotes⟩ := means
    rw [(canonical_eq_ok_iff built).mpr denotes]
    cases denotes with
    | builtin undefined known => simp only [recur, undefined, known]
    | base defined isBase => simp only [recur, defined, isBase, if_true]
    | product defined isProduct each multiplied =>
        simp only [recur, defined, isProduct, Bool.false_eq_true, if_false]
        rw [← multiplied, ← recurTerms_ok]
        exact (recurTerms_congr (fun term isTerm =>
          (canonical_eq_ok_iff built).mpr (each term isTerm)) _).symm
  · have undefined : effective? definitions name = none :=
      effective?_eq_none_iff.mpr fun defined => means (wellDefined.exists_denotes defined)
    have missing : builtin? name = none :=
      Option.eq_none_iff_forall_ne_some.mpr fun units known =>
        means ⟨units, .builtin undefined known⟩
    have unregistered : registry.canonical? name = none :=
      Option.eq_none_iff_forall_ne_some.mpr fun units registered =>
        means ⟨units, (canonical?_eq_some_iff built).mp registered⟩
    simp only [recur, undefined, missing, canonical, unregistered]

/-- Nothing else solves the equation of the plain recursion. -/
theorem eq_canonical_of_recur (built : ofDefinitions definitions = .ok registry)
    {recursion : String → Except UnitsError Canonical}
    (solves : recursion = recur definitions recursion) : recursion = registry.canonical := by
  funext name
  have wellDefined := exists_ofDefinitions_iff_wellDefined.mp ⟨registry, built⟩
  -- The induction follows references, since one level of the recursion asks for nothing else.
  induction wellDefined.grounded name with
  | intro name _ ih =>
      rw [solves, canonical_eq_recur built]
      exact recur_congr ih

end Registry

/-! ## The order of definitions -/

theorem effective?_eq_some_iff {definition : UnitsDefinition}
    (nodup : (definitions.map UnitsDefinition.name).Nodup) :
    effective? definitions name = some definition ↔
      definition ∈ definitions ∧ definition.name = name := by
  constructor
  · intro defined
    exact ⟨effective?_mem defined, by simpa using List.find?_some defined⟩
  · rintro ⟨isDefinition, rfl⟩
    obtain ⟨other, defined⟩ := Option.isSome_iff_exists.mp
      (isSome_effective?.mpr (List.mem_map_of_mem isDefinition))
    have named : other.name = definition.name := by simpa using List.find?_some defined
    rw [defined, List.inj_on_of_nodup_map nodup (effective?_mem defined) isDefinition named]

/-- Where no two definitions share a name, their order does not matter for which one counts. -/
theorem effective?_perm (perm : definitions.Perm others)
    (nodup : (definitions.map UnitsDefinition.name).Nodup) :
    effective? others = effective? definitions := by
  funext name
  refine Option.ext fun definition => ?_
  rw [effective?_eq_some_iff nodup,
    effective?_eq_some_iff ((perm.map UnitsDefinition.name).nodup_iff.mp nodup), perm.mem_iff]

theorem denotes_perm (perm : definitions.Perm others)
    (nodup : (definitions.map UnitsDefinition.name).Nodup) :
    Denotes others name units ↔ Denotes definitions name units :=
  denotes_iff_of_same fun inner _ => congrFun (effective?_perm perm nodup) inner

namespace Registry

theorem exists_ofDefinitions_perm (perm : definitions.Perm others)
    (nodup : (definitions.map UnitsDefinition.name).Nodup) :
    (∃ registry, ofDefinitions definitions = .ok registry) ↔
      ∃ registry, ofDefinitions others = .ok registry := by
  simp only [exists_ofDefinitions_iff, perm.mem_iff, denotes_perm perm nodup]

theorem canonical_perm (perm : definitions.Perm others)
    (nodup : (definitions.map UnitsDefinition.name).Nodup) {one other : Registry}
    (built : ofDefinitions definitions = .ok one) (builtOther : ofDefinitions others = .ok other) :
    one.canonical = other.canonical := by
  refine eq_canonical_of_recur builtOther (funext fun name => ?_)
  rw [recur, effective?_perm perm nodup]
  exact congrFun (canonical_eq_recur built) name

/-- Resolving definitions ends, with an outcome that the recursion without a bound has. It succeeds
exactly if the definitions that count are without a fault. The canonical forms are the one solution
of the plain recursion, and for definitions with names of their own neither success nor any
canonical form depends on the order of the definitions. -/
theorem ofDefinitions_correct (definitions : List UnitsDefinition) :
    ((∃! outcome, ResolvesAll definitions definitions [] outcome) ∧
      ∀ outcome, ResolvesAll definitions definitions [] outcome →
        ofDefinitions definitions = outcome.map Registry.mk) ∧
    ((∃ registry, ofDefinitions definitions = .ok registry) ↔ WellDefined definitions) ∧
    (∀ registry, ofDefinitions definitions = .ok registry → ∀ recursion,
      recursion = recur definitions recursion ↔ recursion = registry.canonical) ∧
    ∀ others, definitions.Perm others → (definitions.map UnitsDefinition.name).Nodup →
      ((∃ registry, ofDefinitions definitions = .ok registry) ↔
        ∃ registry, ofDefinitions others = .ok registry) ∧
      ∀ one other, ofDefinitions definitions = .ok one → ofDefinitions others = .ok other →
        one.canonical = other.canonical := by
  have resolves := resolvesAll_resolveAll definitions definitions []
  refine ⟨⟨⟨_, resolves, fun _ other => other.unique resolves⟩, fun outcome other => ?_⟩,
    exists_ofDefinitions_iff_wellDefined, fun registry built recursion => ⟨?_, ?_⟩,
    fun others perm nodup => ⟨exists_ofDefinitions_perm perm nodup, fun one other built => ?_⟩⟩
  · rw [ofDefinitions, resolves.unique other]
  · exact eq_canonical_of_recur built
  · rintro rfl
    exact canonical_eq_recur built
  · exact canonical_perm perm nodup built

end Registry

end

/-- A base unit, and a thousand of them. -/
def cellUnits : List UnitsDefinition :=
  [⟨"cell", []⟩, ⟨"kcell", [⟨"cell", some (.name "kilo"), none, none⟩]⟩]

theorem cellUnits_resolved :
    ∃ one other, Registry.ofDefinitions cellUnits = .ok one ∧
      Registry.ofDefinitions cellUnits.reverse = .ok other ∧
      one.canonical = recur cellUnits one.canonical ∧ one.canonical = other.canonical := by
  obtain ⟨-, -, plain, ordered⟩ := Registry.ofDefinitions_correct cellUnits
  exact ⟨_, _, rfl, rfl, (plain _ rfl _).mpr rfl,
    (ordered _ (List.reverse_perm _).symm (by decide)).2 _ _ rfl rfl⟩

end ComponentModel.Units
