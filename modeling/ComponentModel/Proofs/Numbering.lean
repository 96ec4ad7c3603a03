import ComponentModel.Analysis.Numbering
import Mathlib.Data.List.Forall2
import Mathlib.Data.List.Infix

/-!
# Numbers in the order of the tree

The numbers of components and declarations are counted out while a tree of components is gone
through. What comes out depends on the list of all components alone: parents stand before their
children, the declarations of one component follow those of the one before it, and whoever follows
the links from the outermost components down meets the numbers in ascending order. A name is
therefore found under the number of the component or variable that has it.
-/

namespace ComponentModel

/-! ## Places in lists

That some values stand in a list one after the other, the first of them at a place, is said by
`values <+: all.drop place`. -/

section

variable {α : Type} {first : Nat}

theorem modify_append (change : α → α) {place : Nat} {front : List α}
    (inside : place < front.length) (back : List α) :
    (front ++ back).modify place change = front.modify place change ++ back := by
  induction front generalizing place with
  | nil => cases inside
  | cons value rest ih =>
      cases place with
      | zero => rfl
      | succ place =>
          simp only [List.cons_append, List.modify_succ_cons, List.cons.injEq, true_and]
          exact ih (Nat.lt_of_succ_lt_succ inside)

theorem isPrefix_drop_add {front back all : List α}
    (listed : front ++ back <+: all.drop first) : back <+: all.drop (first + front.length) := by
  have behind := listed.drop front.length
  rwa [List.drop_left, List.drop_drop] at behind

theorem getElem?_of_isPrefix_drop {value : α} {rest all : List α}
    (listed : value :: rest <+: all.drop first) : all[first]? = some value := by
  obtain ⟨after, split⟩ := listed
  have here : (all.drop first)[0]? = some value := by
    rw [← split]
    rfl
  rwa [List.getElem?_drop] at here

theorem forall₂_range'_of_isPrefix {values all : List α}
    (listed : values <+: all.drop first) :
    List.Forall₂ (fun place value => all[place]? = some value)
      (List.range' first values.length) values := by
  induction values generalizing first with
  | nil => exact .nil
  | cons value rest ih =>
      have behind : [value] ++ rest <+: all.drop first := listed
      exact .cons (getElem?_of_isPrefix_drop listed) (ih (isPrefix_drop_add behind))

theorem exists_of_forall₂ {β : Type} {related : α → β → Prop} {ones : List α} {others : List β}
    (relates : List.Forall₂ related ones others) {place : Nat} {other : β}
    (found : others[place]? = some other) :
    ∃ one, ones[place]? = some one ∧ related one other := by
  induction relates generalizing place with
  | nil => cases found
  | cons relates _ ih =>
      cases place with
      | zero =>
          cases found
          exact ⟨_, rfl, relates⟩
      | succ place => exact ih found

/-- The first value that is accepted is the one at the first place that is. -/
theorem rel_find? (values : List α) (accept : α → Bool) :
    Option.Rel (fun place value => values[place]? = some value) (values.findIdx? accept)
      (values.find? accept) := by
  rw [List.find?_eq_bind_findIdx?_getElem?]
  cases found : values.findIdx? accept with
  | none => exact .none
  | some place =>
      have inside := (List.findIdx?_eq_some_iff_getElem.mp found).1
      rw [Option.bind_some, List.getElem?_eq_getElem inside]
      exact .some (List.getElem?_eq_getElem inside)

end

/-! ## What stands behind a component -/

namespace Component

mutual

/-- In the order of a tree, a component is followed by everything inside it. -/
theorem preorder_isPrefix_drop {inner component : Component} {place : Nat}
    (found : component.preorder[place]? = some inner) :
    inner.preorder <+: component.preorder.drop place := by
  cases component with
  | mk name declarations math components source =>
      cases place with
      | zero =>
          cases found
          exact List.prefix_rfl
      | succ place => exact preorderAll_isPrefix_drop found

theorem preorderAll_isPrefix_drop {inner : Component} {components : List Component} {place : Nat}
    (found : (preorderAll components)[place]? = some inner) :
    inner.preorder <+: (preorderAll components).drop place := by
  cases components with
  | nil => cases found
  | cons component rest =>
      rw [preorderAll] at found ⊢
      rcases Nat.lt_or_ge place component.preorder.length with within | behind
      · rw [List.getElem?_append_left within] at found
        rw [List.drop_append_of_le_length (Nat.le_of_lt within)]
        exact (preorder_isPrefix_drop found).trans (List.prefix_append _ _)
      · rw [List.getElem?_append_right behind] at found
        rw [List.drop_append, List.drop_eq_nil_of_le behind, List.nil_append]
        exact preorderAll_isPrefix_drop found

end

end Component

namespace Analysis

/-! ## Going on behind what is there -/

theorem length_flatMap_declaredBy (components : List Component) :
    (components.flatMap declaredBy).length =
      (components.flatMap Component.declarations).length := by
  simp [declaredBy, List.length_flatMap]

theorem childIds_append (first : Nat) (front back : List Component) :
    childIds first (front ++ back) =
      childIds first front ++ childIds (first + front.length) back := by
  induction front generalizing first with
  | nil => rfl
  | cons component rest ih =>
      rw [List.cons_append, childIds, ih, childIds, List.length_cons, List.cons_append,
        Nat.add_assoc, Nat.add_comm 1]

@[simp] theorem length_childIds (first : Nat) (components : List Component) :
    (childIds first components).length = components.length := by
  induction components generalizing first with
  | nil => rfl
  | cons component rest ih => rw [childIds, List.length_cons, ih, List.length_cons]

theorem getElem?_childIds (first place : Nat) (components : List Component) :
    (childIds first components)[place]? = components[place]?.map fun component =>
      siblingIds (first + place + 1) component.components := by
  induction components generalizing first place with
  | nil => rfl
  | cons component rest ih =>
      cases place with
      | zero => rfl
      | succ place =>
          rw [childIds, List.getElem?_cons_succ, ih, List.getElem?_cons_succ,
            Nat.add_right_comm first 1 place, Nat.add_assoc first place 1]

theorem offsetsFrom_append (first : Nat) (front back : List Component) :
    offsetsFrom first (front ++ back) =
      offsetsFrom first front ++
        offsetsFrom (first + (front.flatMap Component.declarations).length) back := by
  induction front generalizing first with
  | nil => rfl
  | cons component rest ih => simp [offsetsFrom, ih, Nat.add_assoc]

/-- The declarations of a component begin behind those of all components before it. -/
theorem getElem?_offsetsFrom {component : Component} {components : List Component} {place : Nat}
    (first : Nat) (found : components[place]? = some component) :
    (offsetsFrom first components)[place]? =
      some (first + ((components.take place).flatMap declaredBy).length) := by
  induction components generalizing first place with
  | nil => cases found
  | cons head rest ih =>
      cases place with
      | zero => rfl
      | succ place =>
          rw [offsetsFrom, List.getElem?_cons_succ, ih _ found, List.take_succ_cons,
            List.flatMap_cons, List.length_append, declaredBy, List.length_map, Nat.add_assoc]

theorem declaredBy_isPrefix_drop {component : Component} {components : List Component} {place : Nat}
    (found : components[place]? = some component) :
    declaredBy component <+: (components.flatMap declaredBy).drop
      ((components.take place).flatMap declaredBy).length := by
  induction components generalizing place with
  | nil => cases found
  | cons head rest ih =>
      cases place with
      | zero =>
          cases found
          exact List.prefix_append _ _
      | succ place =>
          rw [List.take_succ_cons, List.flatMap_cons, List.flatMap_cons, List.length_append,
            List.drop_length_add_append]
          exact ih found

namespace Numbering

variable {numbering : Numbering} {parent : Nat}

/-- Every component that has been taken in has a list of children. -/
def IsAligned (numbering : Numbering) : Prop :=
  numbering.children.length = numbering.next

/-- Take in components whose children are linked to them already. -/
def extend (numbering : Numbering) (components : List Component) : Numbering :=
  { numbering with
    components := numbering.components ++ components
    children := numbering.children ++ childIds numbering.next components
    declarations := numbering.declarations ++ components.flatMap declaredBy
    offsets := numbering.offsets ++ offsetsFrom numbering.declarations.length components }

/-- Link components to their parent, behind those that are linked to it already. -/
def linkAll (numbering : Numbering) (parent : Nat) (linked : List Nat) : Numbering :=
  { numbering with children := numbering.children.modify parent (· ++ linked) }

/-- Note components as outermost ones, behind those that are noted already. -/
def rootAll (numbering : Numbering) (roots : List Nat) : Numbering :=
  { numbering with roots := numbering.roots ++ roots }

@[simp] theorem next_extend (components : List Component) :
    (numbering.extend components).next = numbering.next + components.length := by
  simp [next, extend]

@[simp] theorem next_linkAll (linked : List Nat) :
    (numbering.linkAll parent linked).next = numbering.next :=
  rfl

@[simp] theorem next_add (component : Component) :
    (numbering.add component).next = numbering.next + 1 := by
  simp [next, add]

theorem IsAligned.extend (aligned : numbering.IsAligned) (components : List Component) :
    (numbering.extend components).IsAligned := by
  rw [IsAligned, next_extend, ← aligned]
  simp [Numbering.extend]

theorem IsAligned.linkAll (aligned : numbering.IsAligned) (linked : List Nat) :
    (numbering.linkAll parent linked).IsAligned := by
  simpa [IsAligned, Numbering.linkAll, next] using aligned

theorem IsAligned.add (aligned : numbering.IsAligned) (component : Component) :
    (numbering.add component).IsAligned := by
  rw [IsAligned, next_add, ← aligned]
  simp [Numbering.add]

theorem extend_nil : numbering.extend [] = numbering := by
  simp [extend, childIds, offsetsFrom]

theorem extend_extend (front back : List Component) :
    (numbering.extend front).extend back = numbering.extend (front ++ back) := by
  simp only [extend, next, List.append_assoc, List.length_append, List.flatMap_append,
    childIds_append, offsetsFrom_append, length_flatMap_declaredBy]

theorem linkAll_nil : numbering.linkAll parent [] = numbering := by
  have kept : (fun linked : List Nat => linked ++ []) = id := funext List.append_nil
  rw [linkAll, kept, List.modify_id]

theorem linkAll_linkAll (front back : List Nat) :
    (numbering.linkAll parent front).linkAll parent back =
      numbering.linkAll parent (front ++ back) := by
  simp [linkAll, List.modify_modify_eq, Function.comp_def]

/-- The links of a component change nothing for those that are taken in behind it. -/
theorem extend_linkAll (aligned : numbering.IsAligned) (inside : parent < numbering.next)
    (linked : List Nat) (components : List Component) :
    (numbering.linkAll parent linked).extend components =
      (numbering.extend components).linkAll parent linked := by
  have inside : parent < numbering.children.length := aligned ▸ inside
  simp only [extend, linkAll, modify_append _ inside]
  rfl

theorem rootAll_nil : numbering.rootAll [] = numbering := by
  rw [rootAll, List.append_nil]

theorem rootAll_rootAll (front back : List Nat) :
    (numbering.rootAll front).rootAll back = numbering.rootAll (front ++ back) := by
  simp only [rootAll, List.append_assoc]

theorem extend_rootAll (roots : List Nat) (components : List Component) :
    (numbering.rootAll roots).extend components = (numbering.extend components).rootAll roots :=
  rfl

/-- A component is taken in with its children as soon as they are linked to it. -/
theorem linkAll_extend_add (aligned : numbering.IsAligned) (component : Component)
    (inner : List Component) :
    ((numbering.add component).extend inner).linkAll numbering.next
        (siblingIds (numbering.next + 1) component.components) =
      numbering.extend (component :: inner) := by
  rw [← extend_linkAll (aligned.add component) (by simp)]
  have linked : (numbering.add component).linkAll numbering.next
        (siblingIds (numbering.next + 1) component.components) =
      numbering.extend [component] := by
    have last (children : List Nat) :
        (numbering.children ++ [[]]).modify numbering.next (· ++ children) =
          numbering.children ++ [children] := by
      rw [← aligned, List.modify_eq_set]
      simp
    simp [linkAll, add, last, extend, childIds, offsetsFrom]
  rw [linked, extend_extend, List.singleton_append]

/-! ## Going through trees -/

mutual

/-- A component that is taken in is followed by everything inside it. -/
theorem addTree_eq (numbering : Numbering) (aligned : numbering.IsAligned)
    (component : Component) :
    numbering.addTree component = (numbering.next, numbering.extend component.preorder) := by
  cases component with
  | mk name declarations math components source =>
      rw [addTree, addInside_eq _ _ (aligned.add _) (by simp), next_add, Component.preorder]
      exact congrArg (Prod.mk _) (linkAll_extend_add aligned _ _)

/-- The links of a parent are the numbers of the components inside it, whatever has been taken in
between two of them. -/
theorem addInside_eq (parent : Nat) (numbering : Numbering) (aligned : numbering.IsAligned)
    (inside : parent < numbering.next) (components : List Component) :
    addInside parent numbering components =
      (numbering.extend (Component.preorderAll components)).linkAll parent
        (siblingIds numbering.next components) := by
  cases components with
  | nil => rw [addInside, Component.preorderAll, extend_nil, siblingIds, linkAll_nil]
  | cons component rest =>
      have behind : parent < (numbering.extend component.preorder).next := by
        rw [next_extend]
        exact Nat.lt_add_right _ inside
      have aligned' := aligned.extend component.preorder
      rw [addInside, addTree_eq _ aligned]
      calc addInside parent ((numbering.extend component.preorder).linkAll parent [numbering.next])
            rest
          = (((numbering.extend component.preorder).linkAll parent [numbering.next]).extend
              (Component.preorderAll rest)).linkAll parent
                (siblingIds (numbering.extend component.preorder).next rest) :=
            addInside_eq _ _ (aligned'.linkAll _) behind rest
        -- Linking the first child and taking in the others change places.
        _ = (numbering.extend (component.preorder ++ Component.preorderAll rest)).linkAll parent
              (numbering.next :: siblingIds (numbering.next + component.preorder.length) rest) := by
            rw [extend_linkAll aligned' behind, extend_extend, linkAll_linkAll, next_extend]
            rfl

end

theorem addRoots_eq (numbering : Numbering) (aligned : numbering.IsAligned)
    (trees : List Component) :
    numbering.addRoots trees =
      (numbering.extend (Component.preorderAll trees)).rootAll
        (siblingIds numbering.next trees) := by
  induction trees generalizing numbering with
  | nil => rw [addRoots, Component.preorderAll, extend_nil, siblingIds, rootAll_nil]
  | cons tree rest ih =>
      rw [addRoots, addTree_eq _ aligned]
      calc ((numbering.extend tree.preorder).rootAll [numbering.next]).addRoots rest
          = (((numbering.extend tree.preorder).rootAll [numbering.next]).extend
              (Component.preorderAll rest)).rootAll
                (siblingIds (numbering.extend tree.preorder).next rest) :=
            ih _ (aligned.extend tree.preorder)
        _ = (numbering.extend (tree.preorder ++ Component.preorderAll rest)).rootAll
              (numbering.next :: siblingIds (numbering.next + tree.preorder.length) rest) := by
            rw [extend_rootAll, extend_extend, rootAll_rootAll, next_extend]
            rfl

/-- Going through trees gives the numbers that an index computes from the list of all components. -/
theorem ofTrees_eq (trees : List Component) : ofTrees trees = (Index.ofTrees trees).numbering := by
  have start : empty.IsAligned := rfl
  rw [ofTrees, addRoots_eq _ start]
  simp [extend, rootAll, empty, next, Index.numbering, Index.ofTrees]

end Numbering

/-! ## Numbers and links -/

namespace Index

/-- A component has a number. -/
def Numbers (index : Index) (number : Nat) (component : Component) : Prop :=
  index.components[number]? = some component

/-- A declaration is that of a variable of a component. -/
def Declares (index : Index) (component : Component) (declaration : Nat) (declared : Variable) :
    Prop :=
  index.declarations[declaration]? =
    some ⟨component.name, declared.name, declared.units, declared.initialValue⟩

/-- Whoever goes through components from left to right, and through the children of each before the
next one, visits components in an order. -/
inductive Visits (index : Index) : (numbers visited : List Nat) → Prop
  | nothing : Visits index [] []
  | component {number : Nat} {rest children inside after : List Nat}
      (linked : index.children[number]? = some children) (below : Visits index children inside)
      (behind : Visits index rest after) : Visits index (number :: rest) (number :: inside ++ after)

variable {index : Index} {model : Model} {component : Component} {first number : Nat}
  {numbers visited : List Nat}

/-- There is one order at most. -/
theorem Visits.unique {other : List Nat} (visits : index.Visits numbers visited)
    (visits' : index.Visits numbers other) : visited = other := by
  induction visits generalizing other with
  | nothing =>
      cases visits'
      rfl
  | component linked _ _ ihBelow ihBehind =>
      cases visits' with
      | component linked' below' behind' =>
          cases Option.some.inj (linked.symm.trans linked')
          rw [ihBelow below', ihBehind behind']

/-- Components side by side have the numbers at which they stand in the list of all components. -/
theorem numbers_siblingIds {trees : List Component}
    (listed : Component.preorderAll trees <+: index.components.drop first) :
    List.Forall₂ index.Numbers (siblingIds first trees) trees := by
  induction trees generalizing first with
  | nil => exact .nil
  | cons tree rest ih =>
      refine .cons ?_ (ih (isPrefix_drop_add listed))
      -- The list of all components of a tree begins with the tree itself.
      cases tree
      exact getElem?_of_isPrefix_drop listed

theorem children_of_numbers (numbered : (ofModel model).Numbers number component) :
    (ofModel model).children[number]? = some (siblingIds (number + 1) component.components) := by
  have found : model.preorder[number]? = some component := numbered
  change (childIds 0 model.preorder)[number]? = _
  rw [getElem?_childIds, found, Option.map_some, Nat.zero_add]

/-- What is inside a component has the numbers behind its own. -/
theorem inside_of_numbers (numbered : (ofModel model).Numbers number component) :
    Component.preorderAll component.components <+:
      (ofModel model).components.drop (number + 1) := by
  have listed : component.preorder <+: (ofModel model).components.drop number :=
    Component.preorderAll_isPrefix_drop numbered
  have behind := listed.drop 1
  rw [List.drop_drop] at behind
  cases component
  exact behind

/-- Trees are visited in the order in which all their components are listed. -/
theorem visits_siblingIds (first : Nat) (trees : List Component)
    (listed : Component.preorderAll trees <+: (ofModel model).components.drop first) :
    (ofModel model).Visits (siblingIds first trees)
      (List.range' first (Component.preorderAll trees).length) := by
  cases trees with
  | nil => exact .nothing
  | cons tree rest =>
      -- What is inside the first tree stands right behind it, and the rest behind all of that.
      have numbered := (List.forall₂_cons.mp (numbers_siblingIds listed)).1
      have behind := visits_siblingIds (first + tree.preorder.length) rest
        (isPrefix_drop_add listed)
      cases tree with
      | mk name declarations math components source =>
          have below := visits_siblingIds (first + 1) components (inside_of_numbers numbered)
          rw [siblingIds, Component.preorderAll, List.length_append, ← List.range'_append_1,
            Component.preorder, List.length_cons, List.range'_succ]
          exact .component (children_of_numbers numbered) below behind

theorem visits_roots_iff (model : Model) (visited : List Nat) :
    (ofModel model).Visits (ofModel model).roots visited ↔
      visited = List.range (ofModel model).components.length := by
  have visits : (ofModel model).Visits (ofModel model).roots
      (List.range (ofModel model).components.length) :=
    List.range_eq_range' ▸ visits_siblingIds 0 model.components List.prefix_rfl
  constructor
  · intro visits'
    exact visits'.unique visits
  · rintro rfl
    exact visits

/-! ## Declarations -/

theorem offset_of_numbers (numbered : (ofModel model).Numbers number component) :
    (ofModel model).offsets[number]? =
      some ((model.preorder.take number).flatMap declaredBy).length := by
  have found : model.preorder[number]? = some component := numbered
  have offset := getElem?_offsetsFrom 0 found
  rwa [Nat.zero_add] at offset

theorem variablesOf_of_numbers (numbered : (ofModel model).Numbers number component) :
    (ofModel model).variablesOf number =
      List.range' ((model.preorder.take number).flatMap declaredBy).length
        component.declarations.length := by
  rw [variablesOf, offset_of_numbers numbered, numbered]

/-- The declarations of the first components are the first declarations. -/
theorem flatMap_variablesOf_take {count : Nat} (within : count ≤ model.preorder.length) :
    (List.range count).flatMap (ofModel model).variablesOf =
      List.range ((model.preorder.take count).flatMap declaredBy).length := by
  induction count with
  | zero => rfl
  | succ count ih =>
      have numbered : (ofModel model).Numbers count model.preorder[count] :=
        List.getElem?_eq_getElem within
      calc (List.range (count + 1)).flatMap (ofModel model).variablesOf
          = List.range ((model.preorder.take count).flatMap declaredBy).length ++
              List.range' ((model.preorder.take count).flatMap declaredBy).length
                model.preorder[count].declarations.length := by
            rw [List.range_succ, List.flatMap_append, ih (Nat.le_of_succ_le within),
              List.flatMap_singleton, variablesOf_of_numbers numbered]
        _ = List.range (((model.preorder.take count).flatMap declaredBy).length +
              (declaredBy model.preorder[count]).length) := by
            rw [List.range_eq_range', List.range_eq_range', ← List.range'_append_1, Nat.zero_add,
              declaredBy, List.length_map]
        _ = List.range ((model.preorder.take (count + 1)).flatMap declaredBy).length := by
            rw [← List.take_concat_get' _ _ within, List.flatMap_append, List.length_append,
              List.flatMap_singleton]

theorem flatMap_range_variablesOf (model : Model) :
    (List.range (ofModel model).components.length).flatMap (ofModel model).variablesOf =
      List.range (ofModel model).declarations.length := by
  have all := flatMap_variablesOf_take (Nat.le_refl model.preorder.length)
  rwa [List.take_length] at all

/-- The declarations of a component are those of its variables, one after the other. -/
theorem declares_variablesOf (numbered : (ofModel model).Numbers number component) :
    List.Forall₂ ((ofModel model).Declares component) ((ofModel model).variablesOf number)
      component.declarations := by
  have found : model.preorder[number]? = some component := numbered
  have places := forall₂_range'_of_isPrefix (declaredBy_isPrefix_drop found)
  rw [declaredBy, List.length_map, List.forall₂_map_right_iff] at places
  rw [variablesOf_of_numbers numbered]
  exact places

/-! ## Names -/

theorem numbers_componentId (model : Model) (name : String) :
    Option.Rel (ofModel model).Numbers ((ofModel model).componentId? name)
      (model.findComponent name) :=
  rel_find? _ _

/-- A name stands for the declaration at the place of the first variable that has it. -/
theorem lookup?_eq (numbered : (ofModel model).Numbers number component) (name : String) :
    (ofModel model).lookup? number name =
      (component.variableIndex? name).bind fun place =>
        ((ofModel model).variablesOf number)[place]? := by
  rw [lookup?, offset_of_numbers numbered, numbered, variablesOf_of_numbers numbered]
  cases found : component.variableIndex? name with
  | none => simp [found]
  | some place =>
      have inside := (List.findIdx?_eq_some_iff_getElem.mp found).1
      simp [found, List.getElem?_range' inside]

theorem declares_lookup (numbered : (ofModel model).Numbers number component) (name : String) :
    Option.Rel ((ofModel model).Declares component) ((ofModel model).lookup? number name)
      (component.findVariable name) := by
  have places : Option.Rel (fun place declared => component.declarations[place]? = some declared)
      (component.variableIndex? name) (component.findVariable name) := rel_find? _ _
  rw [lookup?_eq numbered]
  generalize component.variableIndex? name = place?, component.findVariable name = declared?
    at places
  cases places with
  | none => exact .none
  | some found =>
      obtain ⟨declaration, isDeclaration, declares⟩ :=
        exists_of_forall₂ (declares_variablesOf numbered) found
      rw [Option.bind_some, isDeclaration]
      exact .some declares

/-! ## The order of the tree -/

/-- An index follows the tree of a model. -/
structure FollowsTree (index : Index) (model : Model) : Prop where
  /-- Components are numbered as they are listed, parents before their children. -/
  listed : index.components = model.preorder
  /-- The outermost components are those of the model. -/
  rooted : List.Forall₂ index.Numbers index.roots model.components
  /-- The children of a component are those inside it. -/
  linked : ∀ {number component}, index.Numbers number component →
    ∃ children, index.children[number]? = some children ∧
      List.Forall₂ index.Numbers children component.components
  /-- From the outermost components down, the numbers are met in ascending order, each once. -/
  visited : ∀ visited, index.Visits index.roots visited ↔
    visited = List.range index.components.length
  /-- The declarations of the components follow one another, and together they are all. -/
  consecutive : (List.range index.components.length).flatMap index.variablesOf =
    List.range index.declarations.length
  /-- The declarations of a component are those of its variables, one after the other. -/
  declared : ∀ {number component}, index.Numbers number component →
    List.Forall₂ (index.Declares component) (index.variablesOf number) component.declarations

theorem followsTree_ofModel (model : Model) : (ofModel model).FollowsTree model where
  listed := rfl
  rooted := numbers_siblingIds List.prefix_rfl
  linked := by
    intro number component numbered
    exact ⟨_, children_of_numbers numbered, numbers_siblingIds (inside_of_numbers numbered)⟩
  visited := visits_roots_iff model
  consecutive := flatMap_range_variablesOf model
  declared := declares_variablesOf

/-- The index of a model is what comes out if its components are taken in one by one, and it follows
the tree. The number that is found for the name of a component is that of the component of the model
that has the name, if there is one, and the declaration that is found for a name in a component
stands at the place of the variable of the component that has the name, and is declared by it. -/
theorem numbered_in_tree_order (model : Model) :
    Numbering.ofTrees model.components = (ofModel model).numbering ∧
    (ofModel model).FollowsTree model ∧
    (∀ name, Option.Rel (ofModel model).Numbers ((ofModel model).componentId? name)
      (model.findComponent name)) ∧
    ∀ number component, (ofModel model).Numbers number component → ∀ name,
      (ofModel model).lookup? number name =
        (component.variableIndex? name).bind (fun place =>
          ((ofModel model).variablesOf number)[place]?) ∧
      Option.Rel ((ofModel model).Declares component) ((ofModel model).lookup? number name)
        (component.findVariable name) := by
  refine ⟨Numbering.ofTrees_eq model.components, followsTree_ofModel model,
    numbers_componentId model, ?_⟩
  intro number component numbered name
  constructor
  · exact lookup?_eq numbered name
  · exact declares_lookup numbered name

end Index

end Analysis

end ComponentModel
