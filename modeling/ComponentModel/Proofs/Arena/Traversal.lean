import ComponentModel.Proofs.Arena.Links
import Mathlib.Data.List.Perm.Basic
import Mathlib.Logic.Relation

/-!
# Traversals of an arena

The nodes of an expression are listed by following links down from its root: by a recursion, children
before their parent, or off a stack, parents before their children. Here both are relations without
a bound on the depth or on the number of steps. What they relate is what the bounded traversals
list, as soon as the bound is no less than the number of nodes.
-/

namespace ComponentModel.Equation.Arena

open Relation

variable {arena : Arena} {slot : Slot} {node? : Option Nat} {node parent below : Nat}
  {nodes up stack rest : List Nat}

/-- A node hangs on one side of another one. -/
def IsChild (arena : Arena) (parent below : Nat) : Prop :=
  arena.left? parent = some below ∨ arena.right? parent = some below

theorem isChild_iff : arena.IsChild parent below ↔
    ∃ slot, slot.parent? = some parent ∧ arena.child? slot = some below := by
  constructor
  · intro isChild
    cases isChild with
    | inl left => exact ⟨.left parent, rfl, left⟩
    | inr right => exact ⟨.right parent, rfl, right⟩
  · rintro ⟨slot, belongs, hangs⟩
    cases slot with
    | root => cases belongs
    | left parent =>
        cases belongs
        exact .inl hangs
    | right parent =>
        cases belongs
        exact .inr hangs

theorem isChild_of_hangs (belongs : slot.parent? = some parent)
    (hangs : arena.child? slot = some below) : arena.IsChild parent below :=
  isChild_iff.mpr ⟨slot, belongs, hangs⟩

/-! ## Children before their parent -/

/-- The recursion that lists children before their parent ends with a list of nodes. -/
inductive ListsUp (arena : Arena) : Option Nat → List Nat → Prop
  | nothing : ListsUp arena none []
  | node {node : Nat} {left right : List Nat} (onLeft : ListsUp arena (arena.left? node) left)
      (onRight : ListsUp arena (arena.right? node) right) :
      ListsUp arena (some node) (left ++ right ++ [node])

theorem ListsUp.leaf (left : arena.left? node = none) (right : arena.right? node = none) :
    arena.ListsUp (some node) [node] := by
  have onLeft : arena.ListsUp (arena.left? node) [] := left ▸ .nothing
  have onRight : arena.ListsUp (arena.right? node) [] := right ▸ .nothing
  exact .node onLeft onRight

@[simp] theorem nodesBelow_none (arena : Arena) (depth : Nat) :
    arena.nodesBelow depth none = [] := by
  cases depth <;> rfl

/-- A bound that is no less than the number of nodes is never met. -/
theorem ListsUp.nodesBelow_eq (lists : arena.ListsUp node? nodes) {depth : Nat}
    (deep : nodes.length ≤ depth) : arena.nodesBelow depth node? = nodes := by
  induction lists generalizing depth with
  | nothing => simp
  | node onLeft onRight ihLeft ihRight =>
      simp only [List.length_append, List.length_singleton] at deep
      obtain ⟨depth, rfl⟩ := Nat.exists_eq_add_of_le' (Nat.le_of_add_left_le deep)
      rw [nodesBelow, ihLeft (by omega), ihRight (by omega)]

/-- What is listed can be reached, and the other way round. -/
theorem ListsUp.mem_iff (lists : arena.ListsUp node? nodes) :
    node ∈ nodes ↔ ∃ top, node? = some top ∧ ReflTransGen arena.IsChild top node := by
  induction lists with
  | nothing => simp
  | @node top left right onLeft onRight ihLeft ihRight =>
      simp only [List.mem_append, List.mem_singleton, ihLeft, ihRight, Option.some.injEq,
        exists_eq_left']
      rw [ReflTransGen.cases_head_iff]
      simp only [IsChild]
      grind

/-- A node is listed behind its children. -/
theorem ListsUp.sublist (lists : arena.ListsUp node? nodes) (isChild : arena.IsChild parent below)
    (listed : parent ∈ nodes) : [below, parent].Sublist nodes := by
  induction lists with
  | nothing => cases listed
  | @node top left right onLeft onRight ihLeft ihRight =>
      rw [List.mem_append, List.mem_append, List.mem_singleton] at listed
      rcases listed with (inLeft | inRight) | rfl
      · exact ((ihLeft inLeft).trans (List.sublist_append_left left right)).trans
          (List.sublist_append_left _ _)
      · exact ((ihRight inRight).trans (List.sublist_append_right left right)).trans
          (List.sublist_append_left _ _)
      · have isListed : below ∈ left ++ right := by
          rw [List.mem_append]
          cases isChild with
          | inl isLeft => exact .inl (onLeft.mem_iff.mpr ⟨below, isLeft, .refl⟩)
          | inr isRight => exact .inr (onRight.mem_iff.mpr ⟨below, isRight, .refl⟩)
        exact (List.singleton_sublist.mpr isListed).append (List.Sublist.refl [parent])

/-! ## Parents before their children -/

/-- The nodes at and below a node, parents before their children and the left ones first. -/
inductive ListsDown (arena : Arena) : Option Nat → List Nat → Prop
  | nothing : ListsDown arena none []
  | node {node : Nat} {left right : List Nat} (onLeft : ListsDown arena (arena.left? node) left)
      (onRight : ListsDown arena (arena.right? node) right) :
      ListsDown arena (some node) (node :: (left ++ right))

theorem ListsDown.leaf (left : arena.left? node = none) (right : arena.right? node = none) :
    arena.ListsDown (some node) [node] := by
  have onLeft : arena.ListsDown (arena.left? node) [] := left ▸ .nothing
  have onRight : arena.ListsDown (arena.right? node) [] := right ▸ .nothing
  exact .node onLeft onRight

theorem ListsUp.exists_listsDown (lists : arena.ListsUp node? up) :
    ∃ down, arena.ListsDown node? down := by
  induction lists with
  | nothing => exact ⟨[], .nothing⟩
  | node _ _ ihLeft ihRight =>
      obtain ⟨left, onLeft⟩ := ihLeft
      obtain ⟨right, onRight⟩ := ihRight
      exact ⟨_, .node onLeft onRight⟩

/-- Both directions list the same nodes. -/
theorem ListsDown.perm (down : arena.ListsDown node? nodes) (lists : arena.ListsUp node? up) :
    nodes.Perm up := by
  induction down generalizing up with
  | nothing =>
      cases lists
      exact .refl _
  | @node top left right _ _ ihLeft ihRight =>
      cases lists with
      | node onLeft onRight =>
          exact (((ihLeft onLeft).append (ihRight onRight)).cons top).trans
            (List.perm_append_singleton _ _).symm

theorem ListsDown.head_mem (lists : arena.ListsDown (some node) nodes) : node ∈ nodes := by
  cases lists
  exact List.mem_cons_self

/-- A node is listed in front of its children. -/
theorem ListsDown.sublist (lists : arena.ListsDown node? nodes)
    (isChild : arena.IsChild parent below) (listed : parent ∈ nodes) :
    [parent, below].Sublist nodes := by
  induction lists with
  | nothing => cases listed
  | @node top left right onLeft onRight ihLeft ihRight =>
      rw [List.mem_cons, List.mem_append] at listed
      rcases listed with rfl | inLeft | inRight
      · have isListed : below ∈ left ++ right := by
          rw [List.mem_append]
          cases isChild with
          | inl isLeft => exact .inl (isLeft ▸ onLeft).head_mem
          | inr isRight => exact .inr (isRight ▸ onRight).head_mem
        exact (List.singleton_sublist.mpr isListed).cons_cons parent
      · exact ((ihLeft inLeft).trans (List.sublist_append_left left right)).cons top
      · exact ((ihRight inRight).trans (List.sublist_append_right left right)).cons top

/-- The loop that takes nodes off a stack ends with a list of nodes. -/
inductive TakesOff (arena : Arena) : List Nat → List Nat → Prop
  | nil : TakesOff arena [] []
  | cons {node : Nat} {stack nodes : List Nat}
      (next : TakesOff arena
        ((arena.left? node).toList ++ (arena.right? node).toList ++ stack) nodes) :
      TakesOff arena (node :: stack) (node :: nodes)

/-- A bound that is no less than the number of nodes is never met. -/
theorem TakesOff.nodesOff_eq (takesOff : arena.TakesOff stack nodes) {steps : Nat}
    (enough : nodes.length ≤ steps) : arena.nodesOff steps stack = nodes := by
  induction takesOff generalizing steps with
  | nil => cases steps <;> rfl
  | cons next ih =>
      obtain ⟨steps, rfl⟩ := Nat.exists_eq_add_of_le' (Nat.le_of_add_left_le enough)
      rw [nodesOff, ih (by simpa using enough)]

/-- What is below the node on top of the stack is taken off before the rest of the stack. -/
theorem ListsDown.takesOff (lists : arena.ListsDown node? nodes)
    (others : arena.TakesOff stack rest) :
    arena.TakesOff (node?.toList ++ stack) (nodes ++ rest) := by
  induction lists generalizing stack rest with
  | nothing => exact others
  | node onLeft onRight ihLeft ihRight =>
      have next := ihLeft (ihRight others)
      rw [← List.append_assoc, ← List.append_assoc] at next
      exact .cons next

theorem ListsDown.preOrder_eq (lists : arena.ListsDown arena.root nodes)
    (few : nodes.length ≤ arena.size) : arena.preOrder = nodes := by
  have takesOff := lists.takesOff .nil
  rw [List.append_nil, List.append_nil] at takesOff
  exact takesOff.nodesOff_eq few

end ComponentModel.Equation.Arena
