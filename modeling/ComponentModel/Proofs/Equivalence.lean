import ComponentModel.Proofs.Forest
import ComponentModel.Proofs.Solution
import Mathlib.Order.Bounds.Basic

/-!
# Equivalent declarations

The classes of a model are told by the pairs that its connections declare: two declarations are in
one class exactly if a chain of pairs links them. The first declaration of a class stands for it.
It is the one that a search through the components finds first, as declarations are numbered in the
order of the tree.
-/

namespace ComponentModel.Analysis

namespace Index

variable {model : Model} {one other declaration : Nat}

/-! ## Declared pairs -/

/-- Two declarations are a declared pair: a connection names their components, and one of its pairs
names them. -/
def Paired (index : Index) (connections : List Connection) (one other : Nat) : Prop :=
  ∃ joined ∈ connections, ∃ equated ∈ joined.pairs, ∃ first second,
    index.componentId? joined.first = some first ∧ index.componentId? joined.second = some second ∧
      index.lookup? first equated.first = some one ∧
      index.lookup? second equated.second = some other

theorem mem_pairsOf {index : Index} {joined : Connection} :
    (one, other) ∈ index.pairsOf joined ↔ ∃ equated ∈ joined.pairs, ∃ first second,
      index.componentId? joined.first = some first ∧
        index.componentId? joined.second = some second ∧
        index.lookup? first equated.first = some one ∧
        index.lookup? second equated.second = some other := by
  unfold pairsOf
  split
  case h_1 first second foundFirst foundSecond =>
    simp only [foundFirst, foundSecond, List.mem_filterMap, Option.some.injEq]
    refine exists_congr fun equated => and_congr_right fun _ => ⟨fun paired => ?_, ?_⟩
    · split at paired
      case h_1 isOne isOther =>
        obtain ⟨rfl, rfl⟩ := Prod.mk.inj (Option.some.inj paired)
        exact ⟨first, second, rfl, rfl, isOne, isOther⟩
      case h_2 => cases paired
    · rintro ⟨_, _, rfl, rfl, isOne, isOther⟩
      simp only [isOne, isOther]
  case h_2 missing =>
    simp only [List.not_mem_nil, false_iff]
    rintro ⟨_, -, first, second, foundFirst, foundSecond, -⟩
    exact missing first second foundFirst foundSecond

theorem mem_flatMap_pairsOf {index : Index} {connections : List Connection} :
    (one, other) ∈ connections.flatMap index.pairsOf ↔ index.Paired connections one other := by
  simp only [List.mem_flatMap, mem_pairsOf, Paired]

theorem lt_of_mem_pairsOf {joined : Connection}
    (paired : (one, other) ∈ (ofModel model).pairsOf joined) :
    one < (ofModel model).declarations.length ∧ other < (ofModel model).declarations.length := by
  obtain ⟨_, -, _, _, -, -, isOne, isOther⟩ := mem_pairsOf.mp paired
  exact ⟨lookup?_lt isOne, lookup?_lt isOther⟩

theorem inside_of_pairs (model : Model) :
    ∀ pair ∈ model.connections.flatMap (ofModel model).pairsOf,
      pair.1 < (ofModel model).declarations.length ∧
        pair.2 < (ofModel model).declarations.length := by
  intro pair membership
  obtain ⟨_, -, paired⟩ := List.mem_flatMap.mp membership
  exact lt_of_mem_pairsOf paired

/-! ## Classes -/

/-- The forest from which the classes of a model are read. -/
theorem united_ofModel (model : Model) :
    Forest.United (ofModel model).declarations.length
      (model.connections.flatMap (ofModel model).pairsOf)
      ((ofModel model).united model.connections) :=
  Forest.United.foldl (inside_of_pairs model)

theorem classes_ofModel (model : Model) :
    (ofModel model).classes = (List.range (ofModel model).declarations.length).map
      ((ofModel model).united model.connections).root :=
  (united_ofModel model).ordered.roots_eq _

theorem length_classes (model : Model) :
    (ofModel model).classes.length = (ofModel model).declarations.length := by
  rw [classes_ofModel, List.length_map, List.length_range]

/-- The representative of the class of a declaration is its root. -/
theorem classOf_eq_root (model : Model) (declaration : Nat) :
    (ofModel model).classOf declaration =
      ((ofModel model).united model.connections).root declaration := by
  have united := united_ofModel model
  by_cases inside : declaration < (ofModel model).declarations.length
  · simp [classOf, classes_ofModel, inside]
  · rw [united.ordered.root_of_own]
    all_goals
      simp only [classOf, Forest.parent, List.getD_eq_getElem?_getD]
      rw [List.getElem?_eq_none]
      · rfl
      · simpa [length_classes, united.length] using inside

/-- A class is represented by its first declaration. -/
theorem classOf_le (model : Model) (declaration : Nat) :
    (ofModel model).classOf declaration ≤ declaration := by
  rw [classOf_eq_root]
  exact (united_ofModel model).ordered.root_le declaration

/-- Declarations are in one class exactly if declared pairs link them. -/
theorem classOf_eq_iff :
    (ofModel model).classOf one = (ofModel model).classOf other ↔
      Relation.EqvGen ((ofModel model).Paired model.connections) one other := by
  simp only [classOf_eq_root, (united_ofModel model).root_eq_iff, mem_flatMap_pairsOf]

theorem classOf_classOf (model : Model) (declaration : Nat) :
    (ofModel model).classOf ((ofModel model).classOf declaration) =
      (ofModel model).classOf declaration := by
  simp only [classOf_eq_root, (united_ofModel model).ordered.root_root]

end Index

/-! ## The first declaration of a class -/

theorem range'_find?_append {accept : Nat → Bool} (first : Nat) {here rest : Nat} :
    ((List.range' first here).find? accept).or ((List.range' (first + here) rest).find? accept) =
      (List.range' first (here + rest)).find? accept := by
  rw [← List.find?_append, List.range'_append_1]

mutual

/-- The search through a component goes through its declarations in order. -/
theorem firstDeclaration_eq (accept : Nat → Bool) (first : Nat) (component : Component) :
    firstDeclaration accept first component =
      (List.range' first (declarationCount component)).find? accept := by
  cases component with
  | mk name declarations math components source =>
      rw [firstDeclaration, Option.orElse_eq_or, firstDeclarationAmong_eq, range'_find?_append]
      simp [declarationCount, Component.preorder]

theorem firstDeclarationAmong_eq (accept : Nat → Bool) (first : Nat) (components : List Component) :
    firstDeclarationAmong accept first components =
      (List.range' first ((Component.preorderAll components).flatMap
        Component.declarations).length).find? accept := by
  cases components with
  | nil => rfl
  | cons component rest =>
      rw [firstDeclarationAmong, Option.orElse_eq_or, firstDeclaration_eq, firstDeclarationAmong_eq,
        range'_find?_append]
      simp [declarationCount, Component.preorderAll]

end

/-- The outermost components by number, with all components in the order of the tree, are the trees
themselves. -/
theorem findSome?_siblingIds (accept : Nat → Bool) (first : Nat) (front trees : List Component) :
    (siblingIds front.length trees).findSome? (fun component =>
        (front ++ Component.preorderAll trees)[component]?.bind fun tree =>
          (offsetsFrom first (front ++ Component.preorderAll trees))[component]?.bind fun offset =>
            firstDeclaration accept offset tree) =
      firstDeclarationAmong accept (first + (front.flatMap Component.declarations).length)
        trees := by
  induction trees generalizing front with
  | nil => rfl
  | cons tree rest ih =>
      obtain ⟨inner, preorder⟩ : ∃ inner, tree.preorder = tree :: inner := by
        cases tree
        exact ⟨_, rfl⟩
      have later := ih (front ++ tree.preorder)
      rw [List.length_append, List.append_assoc, List.flatMap_append, List.length_append,
        ← Nat.add_assoc] at later
      rw [siblingIds, List.findSome?_cons, firstDeclarationAmong, Component.preorderAll, later]
      have here : (front ++ (tree.preorder ++ Component.preorderAll rest))[front.length]? =
          some tree := by
        simp [preorder]
      have offset : (offsetsFrom first
          (front ++ (tree.preorder ++ Component.preorderAll rest)))[front.length]? =
            some (first + (front.flatMap Component.declarations).length) := by
        rw [getElem?_offsetsFrom first here, List.take_left, length_flatMap_declaredBy]
      rw [here, offset, Option.orElse_eq_or]
      simp only [Option.bind_some, declarationCount]
      cases firstDeclaration accept (first + (front.flatMap Component.declarations).length) tree <;>
        rfl

namespace Index

variable {model : Model} {declaration : Nat}

/-- The search through the whole model comes to the first declaration of a class. -/
theorem firstOfModel?_eq (inside : declaration < (ofModel model).declarations.length) :
    (ofModel model).firstOfModel? declaration = some ((ofModel model).classOf declaration) := by
  have total : (ofModel model).declarations.length =
      ((Component.preorderAll model.components).flatMap Component.declarations).length := by
    simp [ofModel, ofTrees, declaredBy]
  change firstDeclarationAmong _ 0 model.components = _
  rw [firstDeclarationAmong_eq, ← total, List.find?_range'_eq_some]
  refine ⟨?_, ?_, fun earlier _ before => ?_⟩
  · rw [equivalent, classOf_classOf, beq_self_eq_true]
  · have le := classOf_le model declaration
    simp only [List.mem_range'_1]
    omega
  · have le := classOf_le model earlier
    simp only [equivalent, Bool.not_eq_true', beq_eq_false_iff_ne]
    omega

/-- The search through one outermost component after the other is that through the whole model. -/
theorem findSome?_roots (model : Model) (declaration : Nat) :
    (ofModel model).roots.findSome? ((ofModel model).firstOccurrence? declaration) =
      (ofModel model).firstOfModel? declaration :=
  findSome?_siblingIds ((ofModel model).equivalent declaration) 0 [] model.components

/-- The classes of a model. Two declarations have the same representative exactly if a chain of
declared pairs, read in either direction, links them, and the representative is the first
declaration of its class. Whatever has been united and looked up before, looking up a declaration
in the forest of parents ends, in one way. The depth-first search through the outermost components
finds the representative first. -/
theorem classes_of_links (model : Model) :
    (ofModel model).classes.length = (ofModel model).declarations.length ∧
    (∀ one < (ofModel model).declarations.length, ∀ other < (ofModel model).declarations.length,
      (ofModel model).classOf one = (ofModel model).classOf other ↔
        Relation.EqvGen ((ofModel model).Paired model.connections) one other) ∧
    (∀ declaration < (ofModel model).declarations.length,
      IsLeast {other | Relation.EqvGen ((ofModel model).Paired model.connections) declaration other}
        ((ofModel model).classOf declaration)) ∧
    (∃ forest, Forest.Made (ofModel model).declarations.length forest ∧
      (ofModel model).classes =
        forest.roots (List.range (ofModel model).declarations.length)) ∧
    (∀ forest, Forest.Made (ofModel model).declarations.length forest →
      ∀ declaration root after, Forest.Finds forest declaration root after ↔
        forest.find declaration = (root, after)) ∧
    ∀ declaration < (ofModel model).declarations.length,
      (ofModel model).roots.findSome? ((ofModel model).firstOccurrence? declaration) =
          some ((ofModel model).classOf declaration) ∧
        (ofModel model).firstOfModel? declaration =
          some ((ofModel model).classOf declaration) := by
  refine ⟨length_classes model, fun _ _ _ _ => classOf_eq_iff, fun declaration _ => ⟨?_, ?_⟩,
    ⟨_, Forest.Made.foldl_unite (inside_of_pairs model), rfl⟩,
    fun forest made _ _ _ => made.ordered.1.finds_iff, fun declaration inside => ?_⟩
  · exact classOf_eq_iff.mp (classOf_classOf model declaration).symm
  · intro other linked
    rw [classOf_eq_iff.mpr linked]
    exact classOf_le model other
  · rw [findSome?_roots, firstOfModel?_eq inside]
    exact ⟨rfl, rfl⟩

end Index

end ComponentModel.Analysis
