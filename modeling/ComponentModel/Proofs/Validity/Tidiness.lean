import ComponentModel.Proofs.Validity.WellFormed

/-!
# Unused variables

The strict check of a valid model looks at the interfaces of connected variables first, and at the
use of all variables behind that. A variable that nothing but an initial value names is used where
its component has math, and is not used where it has none.
-/

namespace ComponentModel

namespace Model

variable {model : Model} {fault : ModelFault}

/-- Only a variable that is not used is reported as unused. -/
theorem exists_variableUsed {conditions : List Condition} {component name : String}
    (first : FirstViolated model conditions (.unusedVariable name component)) :
    ∃ declaring, .variableUsed declaring name ∈ conditions ∧ ¬model.Uses declaring name := by
  obtain ⟨before, condition, after, rfl, -, violated, reports⟩ := first.exists_violated
  cases reports with
  | variableUsed declaring => exact ⟨declaring, by simp, violated⟩

theorem not_unused_of_connections {component name : String} :
    ¬FirstViolated model (model.connections.flatMap (Condition.ofConnection true))
      (.unusedVariable name component) := by
  intro first
  obtain ⟨declaring, member, -⟩ := exists_variableUsed first
  obtain ⟨joined, -, member⟩ := List.mem_flatMap.mp member
  simp [Condition.ofConnection, Condition.ofPair] at member

theorem mem_ofUsage_iff {condition : Condition} :
    condition ∈ model.preorder.flatMap Condition.ofUsage ↔ ∃ declaring ∈ model.preorder,
      ∃ declared ∈ declaring.declarations, .variableUsed declaring declared.name = condition := by
  simp [Condition.ofUsage]

/-- Behind the interfaces nothing but unused variables is reported. -/
theorem exists_unused {model : Model}
    (first : FirstViolated model (model.preorder.flatMap Condition.ofUsage) fault) :
    ∃ component name, fault = .unusedVariable name component := by
  obtain ⟨before, condition, after, split, -, -, reports⟩ := first.exists_violated
  obtain ⟨declaring, -, declared, -, rfl⟩ := mem_ofUsage_iff.mp
    (split ▸ List.mem_append_right before List.mem_cons_self)
  cases reports
  exact ⟨_, _, rfl⟩

namespace IsValid

variable (valid : model.IsValid)

include valid

theorem forall_ofConnection_iff :
    (∀ condition ∈ model.connections.flatMap (Condition.ofConnection true),
      condition.Holds model) ↔ ∀ joined ∈ model.connections, joined.ShowsEnds model := by
  rw [List.forall_mem_flatMap]
  refine forall₂_congr fun joined member => ?_
  rw [Condition.forall_ofConnection_iff]
  exact ⟨fun holds => holds.2 rfl, fun shows => ⟨valid.connections joined member, fun _ => shows⟩⟩

/-- What the strict check asks beyond of a valid model: interfaces first, and uses behind them. -/
theorem firstViolated_strict_iff : FirstViolated model (model.conditions true) fault ↔
    FirstViolated model (model.connections.flatMap (Condition.ofConnection true)) fault ∨
      (∀ joined ∈ model.connections, joined.ShowsEnds model) ∧
        FirstViolated model (model.preorder.flatMap Condition.ofUsage) fault := by
  have all : ∀ condition ∈ model.conditions false, condition.Holds model :=
    forall_conditions_iff.mpr ⟨valid, nofun⟩
  simp only [conditions, List.forall_mem_append] at all
  obtain ⟨names, units, components, math, -, -⟩ := all
  have skip {conditions more : List Condition}
      (hold : ∀ condition ∈ conditions, condition.Holds model) :
      FirstViolated model (conditions ++ more) fault ↔ FirstViolated model more fault := by
    rw [FirstViolated.append_iff]
    exact ⟨fun first => first.elim (fun first => absurd hold first.not_all) And.right,
      fun first => .inr ⟨hold, first⟩⟩
  rw [conditions, skip names, skip units, skip components, skip math, FirstViolated.append_iff,
    valid.forall_ofConnection_iff, if_pos rfl]

end IsValid

/-- A model that is valid is refused by the strict check for a variable that is not used exactly if
all connected variables have an interface and a variable of it is not used. That an initial value
names it is a use in a component with math only. -/
theorem strict_refuses_unused_iff (accepted : model.validate false = .ok ()) :
    (∃ component name, model.validate true = .error (.unusedVariable name component)) ↔
      (∀ joined ∈ model.connections, joined.ShowsEnds model) ∧
        ∃ declaring ∈ model.preorder, ∃ declared ∈ declaring.declarations,
          ¬model.Uses declaring declared.name := by
  have valid := accepted_iff.mp accepted
  have decides : Decides model (model.conditions true) (model.validate true) := decides_validate
  simp only [decides.error_iff]
  constructor
  · rintro ⟨component, name, first⟩
    rcases valid.firstViolated_strict_iff.mp first with first | ⟨shown, first⟩
    · exact absurd first not_unused_of_connections
    · obtain ⟨declaring, member, unused⟩ := exists_variableUsed first
      obtain ⟨_, within, declared, isDeclared, same⟩ := mem_ofUsage_iff.mp member
      cases same
      exact ⟨shown, declaring, within, declared, isDeclared, unused⟩
  · rintro ⟨shown, declaring, within, declared, isDeclared, unused⟩
    have untidy : ¬∀ condition ∈ model.conditions true, condition.Holds model := fun all =>
      unused (((forall_conditions_iff.mp all).2 rfl).used declaring within declared isDeclared)
    cases outcome : model.validate true with
    | ok value => exact absurd (decides.passes outcome) untidy
    | error fault =>
        have first := decides.fails outcome
        rcases valid.firstViolated_strict_iff.mp first with before | ⟨-, behind⟩
        · exact absurd (valid.forall_ofConnection_iff.mpr shown) before.not_all
        · obtain ⟨component, name, rfl⟩ := exists_unused behind
          exact ⟨component, name, first⟩

end Model

/-! ## A cell at rest -/

/-- A cell without math that starts from its resting potential, and a probe that reads it. -/
def restingCell : Model where
  schema := "1.0"
  name := "resting_cell"
  units := []
  components :=
    [{ name := "cell"
       declarations := [⟨"v", "dimensionless", some (.text "rest"), some .public⟩,
         ⟨"rest", "dimensionless", some (.text "-65"), none⟩]
       math := none
       components := []
       source := none },
     { name := "probe"
       declarations := [⟨"v", "dimensionless", none, some .public⟩,
         ⟨"reading", "dimensionless", none, none⟩]
       math := some "<math><apply><eq/><ci>reading</ci><ci>v</ci></apply></math>"
       components := []
       source := none }]
  connections := [⟨"cell", "probe", [⟨"v", "v"⟩]⟩]

theorem validate_restingCell : restingCell.validate false = .ok () := by
  decide +kernel

theorem strict_restingCell :
    restingCell.validate true = .error (.unusedVariable "rest" "cell") := by
  decide +kernel

/-- The resting potential is reported, so the model has a variable that is not used. -/
theorem restingCell_refused : restingCell.validate false = .ok () ∧
    (∀ joined ∈ restingCell.connections, joined.ShowsEnds restingCell) ∧
      ∃ declaring ∈ restingCell.preorder, ∃ declared ∈ declaring.declarations,
        ¬restingCell.Uses declaring declared.name :=
  ⟨validate_restingCell, (Model.strict_refuses_unused_iff validate_restingCell).mp
    ⟨"cell", "rest", strict_restingCell⟩⟩

/-- The variable that is reported is the initial value of another one. -/
theorem restingCell_names_all : restingCell.validate false = .ok () ∧
    restingCell.validate true = .error (.unusedVariable "rest" "cell") ∧
    ∀ declaring ∈ restingCell.preorder, ∀ declared ∈ declaring.declarations,
      declaring.MentionsInMath declared.name ∨ declaring.InitialisesFrom declared.name ∨
        restingCell.Connects declaring.name declared.name := by
  have connects (component : String) (isEnd : component = "cell" ∨ component = "probe") :
      restingCell.Connects component "v" :=
    ⟨_, List.mem_singleton_self _, _, List.mem_singleton_self _, by simpa [eq_comm] using isEnd⟩
  refine ⟨validate_restingCell, strict_restingCell, ?_⟩
  have preorder : restingCell.preorder = restingCell.components := rfl
  rw [preorder, restingCell]
  simp only [List.forall_mem_cons]
  refine ⟨⟨.inr (.inr (connects _ (.inl rfl))), .inr (.inl ?_), List.forall_mem_nil _⟩,
    ⟨.inr (.inr (connects _ (.inr rfl))), .inl ?_, List.forall_mem_nil _⟩, List.forall_mem_nil _⟩
  · exact ⟨_, List.mem_cons_self, rfl⟩
  · refine ⟨_, rfl, _, rfl, ⟨"ci", [], [], "reading"⟩, ?_, rfl, rfl⟩
    exact .child (.child (.root List.mem_cons_self) List.mem_cons_self)
      (List.mem_cons_of_mem _ List.mem_cons_self)

end ComponentModel
