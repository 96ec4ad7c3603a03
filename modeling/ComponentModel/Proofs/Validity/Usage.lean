import ComponentModel.Proofs.Validity.Steps

/-!
# The use of variables

The math and the connections of a model record the variables that they use. A variable is among
those recorded exactly if a `ci` element of the math of its component bears its name, or the initial
value of a variable of that component does and the component has math, or a connection joins it.
-/

namespace ComponentModel

/-! ## Elements inside elements -/

namespace Markup

variable {roots : List Element} {element inner : Element}

theorem Inside.of_child (inside : Inside element.children inner) (member : element ∈ roots) :
    Inside roots inner := by
  induction inside with
  | root isChild => exact .child (.root member) isChild
  | child _ isChild ih => exact .child ih isChild

theorem inside_cons_iff : Inside (element :: roots) inner ↔
    inner = element ∨ Inside element.children inner ∨ Inside roots inner := by
  constructor
  · intro inside
    induction inside with
    | root member =>
        rcases List.mem_cons.mp member with rfl | member
        · exact .inl rfl
        · exact .inr (.inr (.root member))
    | child _ isChild ih =>
        rcases ih with rfl | below | beside
        · exact .inr (.inl (.root isChild))
        · exact .inr (.inl (below.child isChild))
        · exact .inr (.inr (beside.child isChild))
  · rintro (rfl | below | beside)
    · exact .root List.mem_cons_self
    · exact below.of_child List.mem_cons_self
    · induction beside with
      | root member => exact .root (List.mem_cons_of_mem _ member)
      | child _ isChild ih => exact ih.child isChild

theorem not_inside_nil : ¬Inside [] inner := by
  intro inside
  induction inside with
  | root member => cases member
  | child _ _ ih => exact ih

end Markup

namespace Validation

variable {model : Model} {strict : Bool} {registry : Units.Registry} {declaring : Component}

mutual

/-- The names in an element are the texts of its `ci` elements. -/
theorem mem_namesIn_iff {name : String} : (element : Markup.Element) →
    (name ∈ namesIn element ↔ element.name = "ci" ∧ element.text = name ∨
      ∃ inner, Markup.Inside element.children inner ∧ inner.name = "ci" ∧ inner.text = name)
  | .mk own attributes children text => by
      rw [namesIn, List.mem_append, mem_namesInAll_iff children]
      by_cases isName : own = "ci" <;> simp [isName, eq_comm (a := name)]

theorem mem_namesInAll_iff {name : String} : (elements : List Markup.Element) →
    (name ∈ namesInAll elements ↔
      ∃ inner, Markup.Inside elements inner ∧ inner.name = "ci" ∧ inner.text = name)
  | [] => by simp [namesInAll, Markup.not_inside_nil]
  | element :: rest => by
      rw [namesInAll, List.mem_append, mem_namesIn_iff element, mem_namesInAll_iff rest]
      simp only [Markup.inside_cons_iff, or_and_right, exists_or, exists_eq_left, or_assoc]

end

/-! ## Recorded variables -/

theorem mem_collect_iff {α : Type} {values : List α}
    {check : α → Except ModelFault (List UsedVariable)} {used : List UsedVariable}
    (passed : collect check values = .ok used) {own : UsedVariable} :
    own ∈ used ↔ ∃ value ∈ values, ∃ part, check value = .ok part ∧ own ∈ part := by
  induction values generalizing used with
  | nil =>
      obtain rfl := Except.ok.inj passed
      simp
  | cons value rest ih =>
      obtain ⟨part, here, passed⟩ := bind_eq_ok passed
      obtain ⟨others, later, passed⟩ := bind_eq_ok passed
      obtain rfl := Except.ok.inj passed
      rw [List.mem_append, ih later, List.exists_mem_cons_iff]
      simp [here]

theorem mem_map_pair_iff {names : List String} {component other name : String} :
    (component, name) ∈ (names.map fun name => (other, name)) ↔ component = other ∧ name ∈ names := by
  rw [List.mem_map]
  constructor
  · rintro ⟨_, member, ⟨⟩⟩
    exact ⟨rfl, member⟩
  · rintro ⟨rfl, member⟩
    exact ⟨name, member, rfl⟩

theorem mem_math_iff {used : List UsedVariable} (passed : math declaring = .ok used)
    {component name : String} : (component, name) ∈ used ↔ component = declaring.name ∧
      (declaring.MentionsInMath name ∨
        (∃ text, declaring.math = some text) ∧ declaring.InitialisesFrom name) := by
  unfold math at passed
  split at passed
  next absent =>
    obtain rfl := Except.ok.inj passed
    simp [Component.MentionsInMath, absent]
  next text written =>
    split at passed
    next => cases passed
    next roots read =>
      obtain rfl := Except.ok.inj passed
      rw [mem_map_pair_iff, List.mem_append, mem_namesInAll_iff, List.mem_filterMap]
      simp [Component.MentionsInMath, Component.InitialisesFrom, written, read]

theorem mem_pair_iff {joined : Connection} {first second : Component} {equated : VariablePair}
    {used : List UsedVariable}
    (passed : pair strict registry joined first second equated = .ok used) {own : UsedVariable} :
    own ∈ used ↔ own = (first.name, equated.first) ∨ own = (second.name, equated.second) := by
  unfold pair at passed
  simp only at passed
  split at passed
  case h_2 => cases passed
  case h_1 one foundOne =>
  split at passed
  case h_2 => cases passed
  case h_1 other foundOther =>
  obtain ⟨alike, -, passed⟩ := bind_eq_ok passed
  obtain ⟨_, -, passed⟩ := bind_eq_ok passed
  have recorded : used = [(first.name, one.name), (second.name, other.name)] := by
    cases strict with
    | false => exact (Except.ok.inj passed).symm
    | true =>
        obtain ⟨_, -, passed⟩ := bind_eq_ok passed
        obtain ⟨_, -, passed⟩ := bind_eq_ok passed
        exact (Except.ok.inj passed).symm
  rw [recorded, (mem_declarations_of_findVariable foundOne).2,
    (mem_declarations_of_findVariable foundOther).2, List.mem_cons, List.mem_singleton]

theorem mem_connection_iff {joined : Connection} {used : List UsedVariable}
    (passed : connection strict registry model joined = .ok used) {component name : String} :
    (component, name) ∈ used ↔ ∃ equated ∈ joined.pairs,
      joined.first = component ∧ equated.first = name ∨
        joined.second = component ∧ equated.second = name := by
  unfold connection at passed
  split at passed
  case h_2 => cases passed
  case h_1 first foundFirst =>
  split at passed
  case h_2 => cases passed
  case h_1 second foundSecond =>
  obtain ⟨_, -, passed⟩ := bind_eq_ok passed
  obtain ⟨_, -, passed⟩ := bind_eq_ok passed
  have named {name : String} {declaring : Component}
      (found : model.findComponent name = some declaring) : declaring.name = name :=
    (mem_preorder_of_findComponent found).2
  rw [mem_collect_iff passed]
  refine exists_congr fun equated => and_congr_right fun member => ?_
  obtain ⟨part, checked⟩ := collect_ok passed equated member
  simp [checked, mem_pair_iff checked, named foundFirst, named foundSecond, eq_comm]

/-- The variables that are recorded are those that are used. -/
theorem recorded_iff (distinct : (model.preorder.map Component.name).Nodup)
    {inMath connected : List UsedVariable} (read : collect math model.preorder = .ok inMath)
    (joined : collect (connection strict registry model) model.connections = .ok connected)
    (within : declaring ∈ model.preorder) {name : String} :
    (declaring.name, name) ∈ inMath ++ connected ↔ model.Uses declaring name := by
  have ofMath : (declaring.name, name) ∈ inMath ↔ declaring.MentionsInMath name ∨
      (∃ text, declaring.math = some text) ∧ declaring.InitialisesFrom name := by
    rw [mem_collect_iff read]
    constructor
    · rintro ⟨other, withinOther, part, checked, member⟩
      obtain ⟨same, uses⟩ := (mem_math_iff checked).mp member
      obtain rfl := List.inj_on_of_nodup_map distinct within withinOther same
      exact uses
    · intro uses
      obtain ⟨part, checked⟩ := collect_ok read declaring within
      exact ⟨declaring, within, part, checked, (mem_math_iff checked).mpr ⟨rfl, uses⟩⟩
  have ofConnections : (declaring.name, name) ∈ connected ↔ model.Connects declaring.name name := by
    rw [mem_collect_iff joined]
    refine exists_congr fun other => and_congr_right fun member => ?_
    obtain ⟨part, checked⟩ := collect_ok joined other member
    simp [checked, mem_connection_iff checked]
  rw [List.mem_append, ofMath, ofConnections, Model.Uses, or_assoc]

theorem decides_usage {used : List UsedVariable}
    (recorded : ∀ name, (declaring.name, name) ∈ used ↔ model.Uses declaring name) :
    Decides model (Condition.ofUsage declaring) (usage used declaring) := by
  rw [Condition.ofUsage, List.map_eq_flatMap]
  refine .forEach fun declared _ => .require_last ?_ (.variableUsed declaring declared.name)
  rw [List.contains_iff_mem]
  exact recorded declared.name

end Validation

end ComponentModel
