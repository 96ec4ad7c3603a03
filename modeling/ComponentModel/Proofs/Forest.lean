import ComponentModel.Analysis.Forest
import Mathlib.Data.List.Induction
import Mathlib.Logic.Relation
import Mathlib.Order.MinMax

/-!
# Roots in a forest

Following parents always ends, as parents are earlier declarations: at a root, which is its own
parent. Making ways shorter leaves all roots as they are, and uniting two declarations gives one
class the root of the other. So two declarations of a forest have the same root exactly if they
are linked by the pairs that have been united, and the root is the first declaration of its class.
-/

namespace ComponentModel.Analysis.Forest

variable {forest after : Forest} {declaration root steps : Nat}

/-! ## Parents -/

/-- No parent comes after its child. -/
def Ordered (forest : Forest) : Prop :=
  ∀ declaration, forest.parent declaration ≤ declaration

theorem ordered_single (count : Nat) : (single count).Ordered := by
  intro declaration
  by_cases inside : declaration < count <;> simp [single, parent, inside]

theorem parent_set (forest : Forest) {child : Nat} (parent : Nat) (inside : child < forest.length)
    (declaration : Nat) :
    Forest.parent (forest.set child parent) declaration =
      if declaration = child then parent else forest.parent declaration := by
  unfold Forest.parent
  simp only [List.getD_eq_getElem?_getD, List.getElem?_set]
  grind

/-- What is attached to an earlier declaration stays in order. -/
theorem Ordered.set (ordered : forest.Ordered) {child parent : Nat} (le : parent ≤ child) :
    Ordered (forest.set child parent) := by
  intro declaration
  by_cases inside : child < forest.length
  · rw [parent_set forest parent inside]
    split
    case isTrue same => exact same ▸ le
    case isFalse => exact ordered declaration
  · rw [List.set_eq_of_length_le (Nat.le_of_not_lt inside)]
    exact ordered declaration

/-! ## Following parents -/

/-- Following parents from a declaration, as long as they are other declarations, ends at a
root. -/
inductive Climbs (forest : Forest) : (declaration root : Nat) → Prop
  | own {declaration : Nat} (own : forest.parent declaration = declaration) :
      Climbs forest declaration declaration
  | step {declaration root : Nat} (other : forest.parent declaration ≠ declaration)
      (rest : Climbs forest (forest.parent declaration) root) : Climbs forest declaration root

namespace Climbs

theorem unique {other : Nat} (first : Climbs forest declaration root)
    (second : Climbs forest declaration other) : root = other := by
  induction first with
  | own own =>
      cases second with
      | own => rfl
      | step different => exact absurd own different
  | step different _ ih =>
      cases second with
      | own own => exact absurd own different
      | step _ rest => exact ih rest

/-- The end of a way is its own parent. -/
theorem parent_root (climbs : Climbs forest declaration root) : forest.parent root = root := by
  induction climbs with
  | own own => exact own
  | step _ _ ih => exact ih

theorem le (ordered : forest.Ordered) (climbs : Climbs forest declaration root) :
    root ≤ declaration := by
  induction climbs with
  | own => exact Nat.le_refl _
  | step _ _ ih => exact ih.trans (ordered _)

end Climbs

/-- Parents are followed to the end if there are as many steps as earlier declarations. -/
theorem Ordered.climbs_rootWithin (ordered : forest.Ordered) (enough : declaration ≤ steps) :
    Climbs forest declaration (forest.rootWithin steps declaration) := by
  induction steps generalizing declaration with
  | zero =>
      obtain rfl := Nat.le_zero.mp enough
      exact .own (Nat.le_zero.mp (ordered 0))
  | succ steps ih =>
      unfold rootWithin
      split
      case isTrue own => exact .own (eq_of_beq own)
      case isFalse other =>
        have other : forest.parent declaration ≠ declaration := by simpa using other
        have le := ordered declaration
        exact .step other (ih (by omega))

theorem Ordered.climbs_root (ordered : forest.Ordered) (declaration : Nat) :
    Climbs forest declaration (forest.root declaration) :=
  ordered.climbs_rootWithin (Nat.le_refl declaration)

theorem Ordered.root_le (ordered : forest.Ordered) (declaration : Nat) :
    forest.root declaration ≤ declaration :=
  (ordered.climbs_root declaration).le ordered

theorem Ordered.parent_root (ordered : forest.Ordered) (declaration : Nat) :
    forest.parent (forest.root declaration) = forest.root declaration :=
  (ordered.climbs_root declaration).parent_root

theorem Ordered.root_of_own (ordered : forest.Ordered)
    (own : forest.parent declaration = declaration) : forest.root declaration = declaration :=
  (ordered.climbs_root declaration).unique (.own own)

theorem Ordered.root_root (ordered : forest.Ordered) (declaration : Nat) :
    forest.root (forest.root declaration) = forest.root declaration :=
  ordered.root_of_own (ordered.parent_root declaration)

theorem Ordered.root_parent (ordered : forest.Ordered) (declaration : Nat) :
    forest.root (forest.parent declaration) = forest.root declaration := by
  by_cases own : forest.parent declaration = declaration
  · rw [own]
  · exact (Climbs.step own (ordered.climbs_root _)).unique (ordered.climbs_root declaration)

/-- Roots are told by any function that keeps to the parents. -/
theorem Ordered.root_eq (ordered : forest.Ordered) (image : Nat → Nat)
    (own : ∀ declaration, forest.parent declaration = declaration →
      image declaration = declaration)
    (step : ∀ declaration, image (forest.parent declaration) = image declaration)
    (declaration : Nat) : forest.root declaration = image declaration := by
  have climbs := ordered.climbs_root declaration
  generalize forest.root declaration = root at climbs
  induction climbs with
  | own isOwn => exact (own _ isOwn).symm
  | step _ _ ih => rw [ih, step]

/-! ## Shorter ways -/

/-- A forest has the roots of another one. -/
structure Keeps (forest after : Forest) : Prop where
  ordered : after.Ordered
  length : after.length = forest.length
  root : ∀ declaration, after.root declaration = forest.root declaration

theorem Keeps.refl (ordered : forest.Ordered) : Keeps forest forest :=
  ⟨ordered, rfl, fun _ => rfl⟩

theorem Keeps.trans {last : Forest} (first : Keeps forest after) (second : Keeps after last) :
    Keeps forest last where
  ordered := second.ordered
  length := second.length.trans first.length
  root declaration := (second.root declaration).trans (first.root declaration)

/-- A declaration that is attached to its root keeps all roots. -/
theorem Ordered.keeps_set (ordered : forest.Ordered) (declaration : Nat) :
    Keeps forest (forest.set declaration (forest.root declaration)) := by
  have attached := ordered.set (ordered.root_le declaration)
  refine ⟨attached, List.length_set, ?_⟩
  by_cases inside : declaration < forest.length
  · refine attached.root_eq forest.root (fun other own => ?_) fun other => ?_
    all_goals rw [parent_set forest _ inside] at *
    · split at own
      case isTrue same => exact same ▸ own
      case isFalse => exact ordered.root_of_own own
    · split
      case isTrue same => rw [ordered.root_root, same]
      case isFalse => exact ordered.root_parent other
  · intro other
    rw [List.set_eq_of_length_le (Nat.le_of_not_lt inside)]

/-- Attaching the declarations on a way to its root, until one has the root as its parent, ends
with a forest. -/
inductive Attaches (root : Nat) : (forest : Forest) → (declaration : Nat) → (after : Forest) → Prop
  | done {forest : Forest} {declaration : Nat} (there : forest.parent declaration = root) :
      Attaches root forest declaration forest
  | step {forest after : Forest} {declaration : Nat} (other : forest.parent declaration ≠ root)
      (rest : Attaches root (forest.set declaration root) (forest.parent declaration) after) :
      Attaches root forest declaration after

namespace Attaches

theorem unique {other : Forest} (first : Attaches root forest declaration after)
    (second : Attaches root forest declaration other) : after = other := by
  induction first with
  | done there =>
      cases second with
      | done => rfl
      | step different => exact absurd there different
  | step different _ ih =>
      cases second with
      | done there => exact absurd there different
      | step _ rest => exact ih rest

/-- On the way to the root of a declaration, all roots are kept. -/
theorem keeps (attaches : Attaches root forest declaration after) (ordered : forest.Ordered)
    (isRoot : forest.root declaration = root) : Keeps forest after := by
  induction attaches with
  | done => exact .refl ordered
  | @step forest after declaration _ _ ih =>
      have kept := ordered.keeps_set declaration
      rw [isRoot] at kept
      refine kept.trans (ih kept.ordered ?_)
      rw [kept.root, ordered.root_parent, isRoot]

end Attaches

/-- A way is made short to its end if there are as many steps as earlier declarations. -/
theorem Ordered.attaches_attachWithin (ordered : forest.Ordered)
    (isRoot : forest.root declaration = root) (enough : declaration ≤ steps) :
    Attaches root forest declaration (attachWithin root steps forest declaration) := by
  induction steps generalizing forest declaration with
  | zero =>
      obtain rfl := Nat.le_zero.mp enough
      have own : forest.parent 0 = 0 := Nat.le_zero.mp (ordered 0)
      exact .done (own.trans ((ordered.root_of_own own).symm.trans isRoot))
  | succ steps ih =>
      unfold attachWithin
      split
      case isTrue there => exact .done (eq_of_beq there)
      case isFalse other =>
        have other : forest.parent declaration ≠ root := by simpa using other
        have less : forest.parent declaration < declaration := by
          refine Nat.lt_of_le_of_ne (ordered declaration) fun own => other ?_
          rw [own, ← isRoot, ordered.root_of_own own]
        have kept := ordered.keeps_set declaration
        rw [isRoot] at kept
        refine .step other (ih kept.ordered ?_ (by omega))
        rw [kept.root, ordered.root_parent, isRoot]

/-! ## Looking up a declaration -/

/-- Looking up a declaration ends with its root and a forest: parents are followed, and then the
declarations on the way are attached. -/
def Finds (forest : Forest) (declaration root : Nat) (after : Forest) : Prop :=
  Climbs forest declaration root ∧ Attaches root forest declaration after

/-- Looking up a declaration always ends, and in one way. -/
theorem Ordered.finds_iff (ordered : forest.Ordered) :
    Finds forest declaration root after ↔ forest.find declaration = (root, after) := by
  have climbs := ordered.climbs_root declaration
  have attaches : Attaches (forest.root declaration) forest declaration
      (forest.find declaration).2 :=
    ordered.attaches_attachWithin rfl (Nat.le_refl declaration)
  constructor
  · rintro ⟨isRoot, isAfter⟩
    obtain rfl := climbs.unique isRoot
    obtain rfl := attaches.unique isAfter
    rfl
  · intro equal
    obtain ⟨rfl, rfl⟩ := Prod.mk.inj equal
    exact ⟨climbs, attaches⟩

theorem Ordered.keeps_find (ordered : forest.Ordered) (declaration : Nat) :
    Keeps forest (forest.find declaration).2 :=
  (ordered.attaches_attachWithin rfl (Nat.le_refl _)).keeps ordered rfl

theorem Ordered.roots_eq (ordered : forest.Ordered) (declarations : List Nat) :
    forest.roots declarations = declarations.map forest.root := by
  induction declarations generalizing forest with
  | nil => rfl
  | cons head rest ih =>
      have kept := ordered.keeps_find head
      change forest.root head :: roots (forest.find head).2 rest = _
      rw [ih kept.ordered, List.map_cons, List.map_congr_left fun other _ => kept.root other]

/-! ## Uniting classes -/

/-- Attaching one root to an earlier one. -/
theorem Ordered.root_link (ordered : forest.Ordered) {low high : Nat} (le : low ≤ high)
    (inside : high < forest.length) (lowRoot : forest.parent low = low)
    (highRoot : forest.parent high = high) (declaration : Nat) :
    Forest.root (forest.set high low) declaration =
      if forest.root declaration = high then low else forest.root declaration := by
  refine (ordered.set le).root_eq
    (fun declaration => if forest.root declaration = high then low else forest.root declaration)
    (fun other own => ?_) (fun other => ?_) declaration
  all_goals rw [parent_set forest _ inside] at *
  · split at own
    case isTrue same =>
      subst same own
      rw [ordered.root_of_own highRoot, if_pos rfl]
    case isFalse different => rw [ordered.root_of_own own, if_neg different]
  · split
    case isTrue same =>
      rw [same, ordered.root_of_own lowRoot, ordered.root_of_own highRoot, if_pos rfl, ite_self]
    case isFalse => rw [ordered.root_parent]

/-- Two classes become one, and nothing else changes. -/
theorem Ordered.unite (ordered : forest.Ordered) {pair : Nat × Nat}
    (first : pair.1 < forest.length) (second : pair.2 < forest.length) :
    Ordered (forest.unite pair) ∧ (forest.unite pair).length = forest.length ∧
      ∀ declaration, Forest.root (forest.unite pair) declaration =
        if forest.root declaration = forest.root pair.1 ∨
            forest.root declaration = forest.root pair.2 then
          min (forest.root pair.1) (forest.root pair.2)
        else forest.root declaration := by
  have kept := ordered.keeps_find pair.1
  have keptBoth := kept.trans (kept.ordered.keeps_find pair.2)
  have one : (forest.find pair.1).1 = forest.root pair.1 := rfl
  have other : (Forest.find (forest.find pair.1).2 pair.2).1 = forest.root pair.2 :=
    kept.root pair.2
  have ownOne := keptBoth.ordered.parent_root pair.1
  have ownOther := keptBoth.ordered.parent_root pair.2
  have insideOne := (ordered.root_le pair.1).trans_lt first
  have insideOther := (ordered.root_le pair.2).trans_lt second
  rw [keptBoth.root] at ownOne ownOther
  rw [← keptBoth.length] at insideOne insideOther
  unfold Forest.unite
  simp only [one, other]
  generalize (Forest.find (forest.find pair.1).2 pair.2).2 = both at *
  split
  case isTrue same =>
    refine ⟨keptBoth.ordered, keptBoth.length, fun declaration => ?_⟩
    rw [keptBoth.root, eq_of_beq same, Nat.min_self]
    split
    case isTrue equal => exact equal.elim id id
    case isFalse => rfl
  case isFalse =>
    rcases Nat.le_total (forest.root pair.1) (forest.root pair.2) with le | le
    · rw [Nat.max_eq_right le, Nat.min_eq_left le]
      refine ⟨keptBoth.ordered.set le, List.length_set.trans keptBoth.length, fun _ => ?_⟩
      rw [keptBoth.ordered.root_link le insideOther ownOne ownOther, keptBoth.root]
      grind
    · rw [Nat.max_eq_left le, Nat.min_eq_right le]
      refine ⟨keptBoth.ordered.set le, List.length_set.trans keptBoth.length, fun _ => ?_⟩
      rw [keptBoth.ordered.root_link le insideOne ownOther ownOne, keptBoth.root]
      grind

/-- The forests that are made of single declarations by looking up and uniting, in any order. -/
inductive Made (count : Nat) : Forest → Prop
  | single : Made count (single count)
  | find {forest : Forest} (made : Made count forest) (declaration : Nat) :
      Made count (forest.find declaration).2
  | unite {forest : Forest} (made : Made count forest) {pair : Nat × Nat} (first : pair.1 < count)
      (second : pair.2 < count) : Made count (forest.unite pair)

theorem Made.ordered {count : Nat} (made : Made count forest) :
    forest.Ordered ∧ forest.length = count := by
  induction made with
  | single => exact ⟨ordered_single count, List.length_range⟩
  | find _ declaration ih =>
      have kept := ih.1.keeps_find declaration
      exact ⟨kept.ordered, kept.length.trans ih.2⟩
  | unite _ first second ih =>
      obtain ⟨ordered, length, -⟩ := ih.1.unite (ih.2 ▸ first) (ih.2 ▸ second)
      exact ⟨ordered, length.trans ih.2⟩

theorem Made.foldl_unite {count : Nat} {pairs : List (Nat × Nat)}
    (inside : ∀ pair ∈ pairs, pair.1 < count ∧ pair.2 < count) :
    Made count (pairs.foldl Forest.unite (Forest.single count)) :=
  List.foldlRecOn pairs Forest.unite .single fun _ made pair membership =>
    made.unite (inside pair membership).1 (inside pair membership).2

/-! ## Linked declarations -/

/-- What has been made of single declarations by uniting pairs. -/
structure United (count : Nat) (pairs : List (Nat × Nat)) (forest : Forest) : Prop where
  ordered : forest.Ordered
  length : forest.length = count
  /-- A declaration is linked to its root. -/
  linked : ∀ declaration,
    Relation.EqvGen (fun one other => (one, other) ∈ pairs) declaration (forest.root declaration)
  /-- The declarations of a pair have the same root. -/
  same : ∀ pair ∈ pairs, forest.root pair.1 = forest.root pair.2

theorem united_single (count : Nat) : United count [] (single count) where
  ordered := ordered_single count
  length := List.length_range
  linked declaration := by
    have own : (single count).parent declaration = declaration := by
      by_cases inside : declaration < count <;> simp [single, parent, inside]
    rw [(ordered_single count).root_of_own own]
    exact .refl declaration
  same := by simp

namespace United

open Relation (EqvGen)

variable {count : Nat} {pairs : List (Nat × Nat)} {pair : Nat × Nat}

/-- Uniting one more pair. -/
theorem unite (united : United count pairs forest) (first : pair.1 < count)
    (second : pair.2 < count) : United count (pairs ++ [pair]) (forest.unite pair) := by
  obtain ⟨ordered, length, root⟩ := united.ordered.unite (united.length ▸ first)
    (united.length ▸ second)
  have linked (declaration : Nat) :
      EqvGen (fun one other => (one, other) ∈ pairs ++ [pair]) declaration
        (forest.root declaration) :=
    (united.linked declaration).mono fun _ _ => List.mem_append_left _
  have joined : EqvGen (fun one other => (one, other) ∈ pairs ++ [pair]) (forest.root pair.1)
      (forest.root pair.2) :=
    ((linked pair.1).symm.trans _ _ _ (.rel _ _ (by simp))).trans _ _ _ (linked pair.2)
  -- The root that is chosen is one of the two, and both are linked.
  have chosen : min (forest.root pair.1) (forest.root pair.2) = forest.root pair.1 ∨
      min (forest.root pair.1) (forest.root pair.2) = forest.root pair.2 :=
    min_choice _ _
  refine ⟨ordered, length.trans united.length, fun declaration => ?_, fun other membership => ?_⟩
  · rw [root]
    split
    case isFalse => exact linked declaration
    case isTrue isEither =>
      refine (linked declaration).trans _ _ _ ?_
      rcases isEither with isOne | isOne <;> rcases chosen with isChosen | isChosen <;>
        rw [isOne, isChosen]
      · exact .refl _
      · exact joined
      · exact joined.symm
      · exact .refl _
  · rw [root, root]
    rcases List.mem_append.mp membership with earlier | new
    · rw [united.same other earlier]
    · rw [List.mem_singleton.mp new, if_pos (Or.inl rfl), if_pos (Or.inr rfl)]

/-- Uniting all pairs, one after the other. -/
theorem foldl (inside : ∀ pair ∈ pairs, pair.1 < count ∧ pair.2 < count) :
    United count pairs (pairs.foldl Forest.unite (single count)) := by
  induction pairs using List.reverseRecOn with
  | nil => exact united_single count
  | append_singleton pairs pair ih =>
      rw [List.foldl_append]
      obtain ⟨first, second⟩ := inside pair (by simp)
      exact (ih fun other earlier => inside other (List.mem_append_left _ earlier)).unite first
        second

/-- Declarations have the same root exactly if they are linked by pairs. -/
theorem root_eq_iff (united : United count pairs forest) {one other : Nat} :
    forest.root one = forest.root other ↔
      EqvGen (fun one other => (one, other) ∈ pairs) one other := by
  constructor
  · intro same
    exact (united.linked one).trans _ _ _ (same ▸ (united.linked other).symm)
  · intro chain
    induction chain with
    | rel one other listed => exact united.same (one, other) listed
    | refl => rfl
    | symm _ _ _ ih => exact ih.symm
    | trans _ _ _ _ _ first second => exact first.trans second

end United

end ComponentModel.Analysis.Forest
