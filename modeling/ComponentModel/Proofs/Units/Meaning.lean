import ComponentModel.Proofs.Validation
import ComponentModel.Units.Registry
import Mathlib.Data.List.Nodup
import Mathlib.Data.List.Perm.Subperm
import Mathlib.Logic.Relation

/-!
# The meaning of units

What a name of units means does not depend on the order in which definitions are resolved: a name
without a definition is a built-in one, a definition without terms is a base unit, and any other is
the product of what its terms refer to. Resolving definitions finds exactly these meanings, and
finds all of them unless a definition has none. A meaning depends on nothing but the definitions
that count for the names it is built from.
-/

namespace ComponentModel.Units

open Relation (ReflTransGen TransGen)

/-- The power of ten in front of the reference of a term. -/
def powerOfTen (owner : String) (term : UnitTerm) : Except UnitsError Int :=
  match term.siPrefix with
  | some written => prefixPower written owner
  | none => .ok 0

/-- The product of the terms of a definition, where the meaning of every reference is given. -/
def multiply (meaning : String → Canonical) (owner : String) :
    List UnitTerm → Canonical → Except UnitsError Canonical
  | [], units => .ok units
  | term :: rest, units => do
      let power ← powerOfTen owner term
      multiply meaning owner rest
        (units.accumulate (meaning term.reference) power term.power term.factor)

/-- What a name means where the definitions of a model are known. -/
inductive Denotes (definitions : List UnitsDefinition) : String → Canonical → Prop
  | builtin {name : String} {units : Canonical}
      (undefined : effective? definitions name = none) (known : builtin? name = some units) :
      Denotes definitions name units
  | base {name : String} {definition : UnitsDefinition}
      (defined : effective? definitions name = some definition) (isBase : definition.isBase) :
      Denotes definitions name (.base name)
  | product {name : String} {definition : UnitsDefinition} {units : Canonical}
      {meaning : String → Canonical}
      (defined : effective? definitions name = some definition)
      (isProduct : definition.isBase = false)
      (each : ∀ term ∈ definition.units,
        Denotes definitions term.reference (meaning term.reference))
      (multiplied : multiply meaning name definition.units .dimensionless = .ok units) :
      Denotes definitions name units

/-- The definition that counts for a name has a term that refers to another one. -/
def RefersTo (definitions : List UnitsDefinition) (name inner : String) : Prop :=
  ∃ definition, effective? definitions name = some definition ∧
    ∃ term ∈ definition.units, term.reference = inner

section

variable {definitions others : List UnitsDefinition} {name : String} {units : Canonical}

theorem isSome_effective? :
    (effective? definitions name).isSome ↔ name ∈ definitions.map UnitsDefinition.name := by
  rw [effective?, List.find?_isSome]
  simp

theorem mem_names_of_effective? {definition : UnitsDefinition}
    (defined : effective? definitions name = some definition) :
    name ∈ definitions.map UnitsDefinition.name :=
  isSome_effective?.mp (Option.isSome_of_eq_some defined)

theorem effective?_eq_none_iff :
    effective? definitions name = none ↔ name ∉ definitions.map UnitsDefinition.name := by
  rw [← Option.not_isSome_iff_eq_none, isSome_effective?]

theorem effective?_mem {definition : UnitsDefinition}
    (defined : effective? definitions name = some definition) : definition ∈ definitions :=
  List.mem_reverse.mp (List.mem_of_find?_eq_some defined)

theorem multiply_congr {one other : String → Canonical} {owner : String} {terms : List UnitTerm}
    (same : ∀ term ∈ terms, one term.reference = other term.reference) (units : Canonical) :
    multiply one owner terms units = multiply other owner terms units := by
  induction terms generalizing units with
  | nil => rfl
  | cons term rest ih =>
      obtain ⟨here, later⟩ := List.forall_mem_cons.mp same
      simp only [multiply, here, ih later]

namespace Denotes

/-- A name has one meaning at most. -/
theorem unique {other : Canonical} (first : Denotes definitions name units)
    (second : Denotes definitions name other) : units = other := by
  induction first generalizing other with
  | builtin undefined known =>
      cases second with
      | builtin _ knownOther => exact Option.some.inj (known.symm.trans knownOther)
      | base defined => cases undefined.symm.trans defined
      | product defined => cases undefined.symm.trans defined
  | base defined isBase =>
      cases second with
      | builtin undefined => cases undefined.symm.trans defined
      | base => rfl
      | product definedOther isProduct =>
          obtain rfl := Option.some.inj (defined.symm.trans definedOther)
          cases isProduct.symm.trans isBase
  | product defined isProduct _ multiplied ih =>
      cases second with
      | builtin undefined => cases undefined.symm.trans defined
      | base definedOther isBase =>
          obtain rfl := Option.some.inj (defined.symm.trans definedOther)
          cases isProduct.symm.trans isBase
      | product definedOther _ each multipliedOther =>
          obtain rfl := Option.some.inj (defined.symm.trans definedOther)
          rw [multiply_congr fun term isTerm => ih term isTerm (each term isTerm)] at multiplied
          exact Except.ok.inj (multiplied.symm.trans multipliedOther)

/-- A meaning depends only on the definitions of the names that it is built from. -/
theorem congr (denotes : Denotes definitions name units)
    (same : ∀ inner, ReflTransGen (RefersTo definitions) name inner →
      effective? others inner = effective? definitions inner) :
    Denotes others name units := by
  induction denotes with
  | builtin undefined known => exact .builtin ((same _ .refl).trans undefined) known
  | base defined isBase => exact .base ((same _ .refl).trans defined) isBase
  | product defined isProduct _ multiplied ih =>
      refine .product ((same _ .refl).trans defined) isProduct (fun term isTerm => ?_) multiplied
      exact ih term isTerm fun inner reached =>
        same inner (.head ⟨_, defined, term, isTerm, rfl⟩ reached)

/-- Meanings of single names are those of one interpretation of all names. -/
theorem exists_meaning {terms : List UnitTerm}
    (each : ∀ term ∈ terms, ∃ units, Denotes definitions term.reference units) :
    ∃ meaning : String → Canonical,
      ∀ term ∈ terms, Denotes definitions term.reference (meaning term.reference) := by
  classical
  refine ⟨fun name => if means : ∃ units, Denotes definitions name units then means.choose
    else .dimensionless, fun term isTerm => ?_⟩
  simp only [dif_pos (each term isTerm)]
  exact (each term isTerm).choose_spec

/-- What has a meaning is built from other names in finitely many steps. -/
theorem grounded (denotes : Denotes definitions name units) :
    Acc (fun inner outer => RefersTo definitions outer inner) name := by
  induction denotes with
  | builtin undefined =>
      refine .intro _ fun inner ⟨_, defined, _⟩ => ?_
      cases undefined.symm.trans defined
  | base defined isBase =>
      refine .intro _ fun inner ⟨_, definedOther, term, isTerm, _⟩ => ?_
      obtain rfl := Option.some.inj (defined.symm.trans definedOther)
      rw [List.isEmpty_iff.mp isBase] at isTerm
      cases isTerm
  | product defined _ _ _ ih =>
      refine .intro _ fun inner ⟨_, definedOther, term, isTerm, named⟩ => ?_
      obtain rfl := Option.some.inj (defined.symm.trans definedOther)
      exact named ▸ ih term isTerm

/-- What has a meaning is not built from itself. -/
theorem irrefl (denotes : Denotes definitions name units) :
    ¬TransGen (RefersTo definitions) name name := by
  have grounded := denotes.grounded
  clear denotes
  intro cyclic
  induction grounded with
  | intro name _ ih =>
      obtain ⟨inner, refers, back⟩ := TransGen.head'_iff.mp cyclic
      exact ih inner refers (.tail' back refers)

end Denotes

/-- Where the definitions of the names that a name is built from are the same, so is its meaning. -/
theorem denotes_iff_of_same
    (same : ∀ inner, ReflTransGen (RefersTo definitions) name inner →
      effective? others inner = effective? definitions inner) :
    Denotes others name units ↔ Denotes definitions name units := by
  refine ⟨fun denotes => denotes.congr fun inner reached => (same inner ?_).symm,
    fun denotes => denotes.congr same⟩
  induction reached with
  | refl => exact .refl
  | tail _ refers ih =>
      obtain ⟨definition, defined, isTerm⟩ := refers
      exact ih.tail ⟨definition, (same _ ih).symm.trans defined, isTerm⟩

/-! ## Resolving -/

/-- What has been resolved is what the names mean. -/
def Sound (definitions : List UnitsDefinition) (resolved : Resolved) : Prop :=
  ∀ name units, resolved.lookup name = some units → Denotes definitions name units

theorem sound_nil : Sound definitions [] := nofun

/-- A step of resolving keeps the names that are known, and what is known stays right. -/
structure Grows (definitions : List UnitsDefinition) (resolved later : Resolved) : Prop where
  sound : Sound definitions resolved → Sound definitions later
  known : ∀ name, (resolved.lookup name).isSome → (later.lookup name).isSome

namespace Grows

variable {resolved middle later : Resolved}

theorem refl (resolved : Resolved) : Grows definitions resolved resolved :=
  ⟨id, fun _ => id⟩

theorem trans (first : Grows definitions resolved middle)
    (second : Grows definitions middle later) : Grows definitions resolved later :=
  ⟨second.sound ∘ first.sound, fun name => second.known name ∘ first.known name⟩

theorem insert (grows : Grows definitions resolved later)
    (denotes : Sound definitions resolved → Denotes definitions name units) :
    Grows definitions resolved ((name, units) :: later) where
  sound sound other found known := by
    rw [List.lookup_cons] at known
    split at known
    case h_1 same =>
      obtain rfl := eq_of_beq same
      exact Option.some.inj known ▸ denotes sound
    case h_2 => exact grows.sound sound other found known
  known other isKnown := by
    rw [List.lookup_cons]
    split
    · rfl
    · exact grows.known other isKnown

end Grows

/-- A way to resolve names finds what they mean. -/
def Finds (definitions : List UnitsDefinition)
    (resolve : String → Resolved → Except UnitsError (Canonical × Resolved)) : Prop :=
  ∀ name resolved units later, resolve name resolved = .ok (units, later) →
    Grows definitions resolved later ∧ (Sound definitions resolved → Denotes definitions name units)

theorem resolveTerms_cons (resolve : String → Resolved → Except UnitsError (Canonical × Resolved))
    (owner : String) (term : UnitTerm) (rest : List UnitTerm) (units : Canonical)
    (resolved : Resolved) :
    resolveTerms resolve owner (term :: rest) units resolved =
      (resolve term.reference resolved >>= fun found => powerOfTen owner term >>= fun power =>
        resolveTerms resolve owner rest (units.accumulate found.1 power term.power term.factor)
          found.2) := by
  rw [resolveTerms, powerOfTen]
  cases term.siPrefix <;> rfl

/-- A name with a definition is resolved from its terms, unless it is being resolved already. -/
theorem resolveName_of_defined {definition : UnitsDefinition} {resolved : Resolved}
    (unknown : resolved.lookup name = none)
    (defined : effective? definitions name = some definition) (depth : Nat) (chain : List String) :
    resolveName definitions (depth + 1) chain name resolved =
      if chain.contains name then .error (.circular (chain ++ [name]))
      else
        (if definition.isBase then .ok (.base name, resolved)
        else resolveTerms (resolveName definitions depth (chain ++ [name])) name definition.units
          .dimensionless resolved) >>= fun found => .ok (found.1, (name, found.1) :: found.2) := by
  rw [resolveName]
  simp only [unknown, defined]
  cases definition.isBase <;> rfl

/-- The terms of a definition are multiplied with what their references mean. -/
theorem resolveTerms_ok {resolve : String → Resolved → Except UnitsError (Canonical × Resolved)}
    (finds : Finds definitions resolve) {owner : String} {terms : List UnitTerm}
    {resolved later : Resolved} {result : Canonical}
    (done : resolveTerms resolve owner terms units resolved = .ok (result, later)) :
    Grows definitions resolved later ∧ (Sound definitions resolved →
      (∀ term ∈ terms, ∃ meaning, Denotes definitions term.reference meaning) ∧
      ∀ meaning : String → Canonical,
        (∀ term ∈ terms, Denotes definitions term.reference (meaning term.reference)) →
        multiply meaning owner terms units = .ok result) := by
  induction terms generalizing units resolved with
  | nil =>
      obtain ⟨rfl, rfl⟩ := Prod.mk.inj (Except.ok.inj done)
      exact ⟨.refl _, fun _ => ⟨by simp, fun _ _ => rfl⟩⟩
  | cons term rest ih =>
      rw [resolveTerms_cons] at done
      obtain ⟨⟨reference, middle⟩, found, done⟩ := bind_eq_ok done
      obtain ⟨power, scaled, done⟩ := bind_eq_ok done
      obtain ⟨grows, denotes⟩ := finds _ _ _ _ found
      obtain ⟨growsLater, product⟩ := ih done
      refine ⟨grows.trans growsLater, fun sound => ?_⟩
      obtain ⟨each, multiplied⟩ := product (grows.sound sound)
      refine ⟨List.forall_mem_cons.mpr ⟨⟨reference, denotes sound⟩, each⟩, fun meaning means => ?_⟩
      obtain ⟨here, others⟩ := List.forall_mem_cons.mp means
      have same : meaning term.reference = reference := here.unique (denotes sound)
      rw [multiply, scaled]
      exact same ▸ multiplied meaning others

/-- Resolving a name finds what it means; a name with a definition is known then. -/
theorem resolveName_ok {depth : Nat} {chain : List String} {resolved later : Resolved}
    (done : resolveName definitions depth chain name resolved = .ok (units, later)) :
    Grows definitions resolved later ∧ (Sound definitions resolved → Denotes definitions name units) ∧
      ((effective? definitions name).isSome → (later.lookup name).isSome) := by
  induction depth generalizing chain name resolved units later with
  | zero => cases done
  | succ depth ih =>
      cases known : resolved.lookup name with
      | some found =>
          simp only [resolveName, known] at done
          obtain ⟨rfl, rfl⟩ := Prod.mk.inj (Except.ok.inj done)
          exact ⟨.refl _, fun sound => sound _ _ known, fun _ => by rw [known]; rfl⟩
      | none =>
          cases defined : effective? definitions name with
          | none =>
              simp only [resolveName, known, defined] at done
              split at done
              case h_1 found isBuiltin =>
                obtain ⟨rfl, rfl⟩ := Prod.mk.inj (Except.ok.inj done)
                exact ⟨.refl _, fun _ => .builtin defined isBuiltin, nofun⟩
              case h_2 => cases done
          | some definition =>
              rw [resolveName_of_defined known defined] at done
              split at done
              case isTrue => cases done
              case isFalse =>
                obtain ⟨⟨found, middle⟩, built, done⟩ := bind_eq_ok done
                obtain ⟨rfl, rfl⟩ := Prod.mk.inj (Except.ok.inj done)
                obtain ⟨grows, denotes⟩ : Grows definitions resolved middle ∧
                    (Sound definitions resolved → Denotes definitions name found) := by
                  split at built
                  case isTrue isBase =>
                    obtain ⟨rfl, rfl⟩ := Prod.mk.inj (Except.ok.inj built)
                    exact ⟨.refl _, fun _ => .base defined isBase⟩
                  case isFalse isProduct =>
                    obtain ⟨grows, product⟩ := resolveTerms_ok
                      (fun _ _ _ _ done => ⟨(ih done).1, (ih done).2.1⟩) built
                    refine ⟨grows, fun sound => ?_⟩
                    obtain ⟨each, multiplied⟩ := product sound
                    obtain ⟨meaning, means⟩ := Denotes.exists_meaning each
                    exact .product defined (by simpa using isProduct) means
                      (multiplied meaning means)
                refine ⟨grows.insert denotes, denotes, fun _ => ?_⟩
                rw [List.lookup_cons_self]
                rfl

/-- Terms can be multiplied if all their references can be resolved. -/
theorem exists_resolveTerms
    {resolve : String → Resolved → Except UnitsError (Canonical × Resolved)}
    {meaning : String → Canonical} {owner : String} {terms : List UnitTerm} {result : Canonical}
    (each : ∀ term ∈ terms, ∀ resolved, ∃ found, resolve term.reference resolved = .ok found)
    {start : Canonical} (multiplied : multiply meaning owner terms start = .ok result)
    (units : Canonical) (resolved : Resolved) :
    ∃ found, resolveTerms resolve owner terms units resolved = .ok found := by
  induction terms generalizing start units resolved with
  | nil => exact ⟨_, rfl⟩
  | cons term rest ih =>
      obtain ⟨here, later⟩ := List.forall_mem_cons.mp each
      obtain ⟨power, scaled, multiplied⟩ := bind_eq_ok multiplied
      obtain ⟨found, resolves⟩ := here resolved
      rw [resolveTerms_cons, resolves, scaled]
      exact ih later multiplied _ _

/-- A chain of definitions that are being resolved repeats none, and the depth that is left is
enough for all others. -/
structure LeavesRoom (definitions : List UnitsDefinition) (chain : List String) (depth : Nat) :
    Prop where
  nodup : chain.Nodup
  defined : chain ⊆ definitions.map UnitsDefinition.name
  deep : definitions.length < depth + chain.length

namespace LeavesRoom

variable {chain : List String} {depth : Nat}

theorem start : LeavesRoom definitions [] (definitions.length + 1) :=
  ⟨.nil, List.nil_subset _, by simp⟩

theorem depth_pos (room : LeavesRoom definitions chain depth) : 0 < depth := by
  have bound := (room.nodup.subperm room.defined).length_le
  rw [List.length_map] at bound
  have deep := room.deep
  omega

theorem append {definition : UnitsDefinition} (room : LeavesRoom definitions chain (depth + 1))
    (outside : name ∉ chain) (isDefined : effective? definitions name = some definition) :
    LeavesRoom definitions (chain ++ [name]) depth where
  nodup := List.nodup_append_comm.mp (List.nodup_cons.mpr ⟨outside, room.nodup⟩)
  defined := List.append_subset.mpr
    ⟨room.defined, List.cons_subset.mpr ⟨mem_names_of_effective? isDefined, List.nil_subset _⟩⟩
  deep := by
    have deep := room.deep
    rw [List.length_append, List.length_singleton]
    omega

end LeavesRoom

/-- Whatever has a meaning can be resolved while definitions that are built from it are being
resolved, where the depth leaves room for all definitions that are not. -/
theorem exists_resolveName (denotes : Denotes definitions name units) {depth : Nat}
    {chain : List String} (room : LeavesRoom definitions chain depth)
    (outer : ∀ inner ∈ chain, TransGen (RefersTo definitions) inner name) (resolved : Resolved) :
    ∃ found, resolveName definitions depth chain name resolved = .ok found := by
  induction depth generalizing name units chain resolved with
  | zero => exact absurd room.depth_pos (Nat.lt_irrefl 0)
  | succ depth ih =>
      cases known : resolved.lookup name with
      | some found => exact ⟨_, by rw [resolveName, known]⟩
      | none =>
          have outside : name ∉ chain := fun isInside => denotes.irrefl (outer name isInside)
          cases denotes with
          | builtin undefined isBuiltin =>
              exact ⟨(units, resolved), by simp only [resolveName, known, undefined, isBuiltin]⟩
          | base isDefined isBase =>
              rw [resolveName_of_defined known isDefined, if_neg (by simpa using outside),
                if_pos isBase]
              exact ⟨_, rfl⟩
          | @product _ definition _ meaning isDefined isProduct each multiplied =>
              have inside : ∀ term ∈ definition.units, ∀ resolved, ∃ found,
                  resolveName definitions depth (chain ++ [name]) term.reference resolved =
                    .ok found := by
                intro term isTerm resolved
                have refers : RefersTo definitions name term.reference :=
                  ⟨definition, isDefined, term, isTerm, rfl⟩
                refine ih (each term isTerm) (room.append outside isDefined) ?_ resolved
                rw [List.forall_mem_append, List.forall_mem_singleton]
                exact ⟨fun inner isInside => (outer inner isInside).tail refers, .single refers⟩
              obtain ⟨found, resolves⟩ :=
                exists_resolveTerms inside multiplied .dimensionless resolved
              rw [resolveName_of_defined known isDefined, if_neg (by simpa using outside),
                if_neg (by simp [isProduct]), resolves]
              exact ⟨_, rfl⟩

/-- All definitions of a list that are resolved have a meaning and are known then. -/
theorem resolveAll_ok {rest : List UnitsDefinition} {resolved later : Resolved}
    (done : resolveAll definitions rest resolved = .ok later) :
    Grows definitions resolved later ∧ ∀ definition ∈ rest,
      ((effective? definitions definition.name).isSome →
        (later.lookup definition.name).isSome) ∧
      (Sound definitions resolved → ∃ units, Denotes definitions definition.name units) := by
  induction rest generalizing resolved with
  | nil =>
      obtain rfl := Except.ok.inj done
      exact ⟨.refl _, by simp⟩
  | cons definition rest ih =>
      obtain ⟨⟨units, middle⟩, resolves, done⟩ := bind_eq_ok done
      obtain ⟨grows, denotes, known⟩ := resolveName_ok resolves
      obtain ⟨growsLater, each⟩ := ih done
      refine ⟨grows.trans growsLater, List.forall_mem_cons.mpr ⟨?_, fun other isRest => ?_⟩⟩
      · exact ⟨fun defined => growsLater.known _ (known defined), fun sound => ⟨units, denotes sound⟩⟩
      · exact ⟨(each other isRest).1, fun sound => (each other isRest).2 (grows.sound sound)⟩

theorem exists_resolveAll {rest : List UnitsDefinition}
    (each : ∀ definition ∈ rest, ∃ units, Denotes definitions definition.name units)
    (resolved : Resolved) : ∃ later, resolveAll definitions rest resolved = .ok later := by
  induction rest generalizing resolved with
  | nil => exact ⟨_, rfl⟩
  | cons definition rest ih =>
      obtain ⟨⟨units, denotes⟩, others⟩ := List.forall_mem_cons.mp each
      obtain ⟨found, resolves⟩ := exists_resolveName denotes .start (by simp) resolved
      rw [resolveAll, resolves]
      exact ih others _

namespace Registry

/-- The units of a model can be resolved exactly if every definition has a meaning. -/
theorem exists_ofDefinitions_iff :
    (∃ registry, ofDefinitions definitions = .ok registry) ↔
      ∀ definition ∈ definitions, ∃ units, Denotes definitions definition.name units := by
  constructor
  · rintro ⟨registry, built⟩
    cases resolves : resolveAll definitions definitions [] with
    | error fault => rw [ofDefinitions, resolves] at built; cases built
    | ok later =>
        exact fun definition isDefined => ((resolveAll_ok resolves).2 definition isDefined).2 sound_nil
  · intro each
    obtain ⟨later, resolves⟩ := exists_resolveAll each []
    exact ⟨⟨later⟩, by rw [ofDefinitions, resolves]; rfl⟩

/-- The canonical form of a name is what it means. -/
theorem canonical?_eq_some_iff {registry : Registry}
    (built : ofDefinitions definitions = .ok registry) :
    registry.canonical? name = some units ↔ Denotes definitions name units := by
  cases resolves : resolveAll definitions definitions [] with
  | error fault => rw [ofDefinitions, resolves] at built; cases built
  | ok later =>
      rw [ofDefinitions, resolves] at built
      obtain rfl := Except.ok.inj built
      obtain ⟨grows, each⟩ := resolveAll_ok resolves
      have resolvedAll (defined : (effective? definitions name).isSome) :
          (later.lookup name).isSome := by
        obtain ⟨definition, isDefined, rfl⟩ := List.mem_map.mp (isSome_effective?.mp defined)
        exact (each definition isDefined).1 defined
      rw [canonical?]
      cases known : later.lookup name with
      | some found =>
          have denotes := grows.sound sound_nil _ _ known
          exact ⟨fun same => Option.some.inj same ▸ denotes,
            fun other => congrArg some (denotes.unique other)⟩
      | none =>
          have undefined : effective? definitions name = none := by
            rw [← Option.not_isSome_iff_eq_none]
            intro defined
            have isKnown := resolvedAll defined
            rw [known] at isKnown
            cases isKnown
          refine ⟨.builtin undefined, fun denotes => ?_⟩
          cases denotes with
          | builtin _ isBuiltin => exact isBuiltin
          | base defined => cases undefined.symm.trans defined
          | product defined => cases undefined.symm.trans defined

end Registry

end

end ComponentModel.Units
