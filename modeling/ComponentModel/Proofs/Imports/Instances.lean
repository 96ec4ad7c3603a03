import ComponentModel.Proofs.Imports.Replacement
import Mathlib.Data.List.Pairwise

/-!
# Copies and their connections

Every import makes a copy of its own. A copy brings the connections of its document that lie in the
copied tree, with both ends renamed to components of that copy. Copies of which none was made
inside the other share no component; what joins them was contributed by a copy in which both were
made.
-/

namespace ComponentModel

/-! ## Trees inside trees -/

mutual

/-- The tree of a component is a part of the tree that it stands in. -/
theorem Component.preorder_sublist {inner component : Component}
    (membership : inner ∈ component.preorder) : inner.preorder.Sublist component.preorder := by
  match component with
  | .mk name declarations math components source =>
      rw [preorder, List.mem_cons] at membership
      rcases membership with rfl | below
      · exact .refl _
      · rw [preorder]
        exact (preorderAll_sublist below).cons _

theorem Component.preorderAll_sublist {inner : Component} {components : List Component}
    (membership : inner ∈ preorderAll components) :
    inner.preorder.Sublist (preorderAll components) := by
  match components with
  | [] => exact absurd membership List.not_mem_nil
  | head :: rest =>
      rw [preorderAll, List.mem_append] at membership
      rw [preorderAll]
      rcases membership with here | later
      · exact (preorder_sublist here).trans (List.sublist_append_left _ _)
      · exact (preorderAll_sublist later).trans (List.sublist_append_right _ _)

end

/-! ## Copies inside expansions -/

namespace Expansion

theorem mem_instances_plain {written : Component} {name : String} {inside : List Expansion}
    {made : ImportInstance} :
    made ∈ (plain written name inside).instances ↔ ∃ inner ∈ inside, made ∈ inner.instances := by
  rw [instances, instancesAll_eq, List.mem_flatMap]

theorem mem_instances_imported {written : Component} {document : Model} {copy : Expansion}
    {inside : List Expansion} {made : ImportInstance} :
    made ∈ (imported written document copy inside).instances ↔
      made ∈ copy.instances ∨ made = ⟨document, copy⟩ ∨
        ∃ inner ∈ inside, made ∈ inner.instances := by
  rw [instances, instancesAll_eq, List.mem_append, List.mem_cons, List.mem_flatMap]

/-- A copy is smaller than what it has been made in. -/
theorem sizeOf_copy_lt {expansion : Expansion} {made : ImportInstance}
    (membership : made ∈ expansion.instances) : sizeOf made.copy < sizeOf expansion := by
  induction expansion using induction with
  | plain written name inside each =>
      obtain ⟨inner, isChild, member⟩ := mem_instances_plain.mp membership
      have smaller := each inner isChild member
      have listed := List.sizeOf_lt_of_mem isChild
      rw [plain.sizeOf_spec]
      omega
  | imported written document copy inside copied each =>
      rw [imported.sizeOf_spec]
      rcases mem_instances_imported.mp membership with inCopy | rfl | ⟨inner, isChild, member⟩
      · have smaller := copied inCopy
        omega
      · change sizeOf copy < _
        omega
      · have smaller := each inner isChild member
        have listed := List.sizeOf_lt_of_mem isChild
        omega

/-- The components of a copy are inside what it has been made in. -/
theorem names_copy_sublist {expansion : Expansion} {made : ImportInstance}
    (membership : made ∈ expansion.instances) : made.copy.names.Sublist expansion.names := by
  have inside_sublist {inside : List Expansion} {inner : Expansion} (isChild : inner ∈ inside) :
      inner.names.Sublist (inside.flatMap names) :=
    List.sublist_flatten_of_mem (List.mem_map_of_mem isChild)
  induction expansion using induction with
  | plain written name inside each =>
      obtain ⟨inner, isChild, member⟩ := mem_instances_plain.mp membership
      rw [names_plain]
      exact ((each inner isChild member).trans (inside_sublist isChild)).cons _
  | imported written document copy inside copied each =>
      rw [names_imported]
      rcases mem_instances_imported.mp membership with inCopy | rfl | ⟨inner, isChild, member⟩
      · exact (copied inCopy).trans (List.sublist_append_left _ _)
      · exact List.sublist_append_left _ _
      · exact ((each inner isChild member).trans (inside_sublist isChild)).trans
          (List.sublist_append_right _ _)

theorem names_copy_subset {expansion : Expansion} {made : ImportInstance}
    (membership : made ∈ expansion.instances) : made.copy.names ⊆ expansion.names :=
  (names_copy_sublist membership).subset

/-- Every copy is one of what a source names. -/
theorem IsMadeBy.of_mem_instances {library : Library} {naming : Naming} {expansion : Expansion}
    {made : ImportInstance} (isMade : expansion.IsMadeBy library naming)
    (membership : made ∈ expansion.instances) :
    (∃ source, library.definition? source = some (made.document, made.copy.written)) ∧
      made.copy.IsMadeBy library .fresh := by
  induction isMade with
  | plain _ _ _ _ ih =>
      obtain ⟨inner, isChild, member⟩ := mem_instances_plain.mp membership
      exact ih inner isChild member
  | imported _ found copied _ _ _ ihCopy ih =>
      rcases mem_instances_imported.mp membership with inCopy | rfl | ⟨inner, isChild, member⟩
      · exact ihCopy inCopy
      · exact ⟨⟨_, found⟩, copied⟩
      · exact ih inner isChild member

/-! ## Copies apart from each other -/

end Expansion

namespace ImportInstance

/-- The names of the components of a copy. -/
def names (made : ImportInstance) : List String :=
  made.copy.names

/-- Two copies differ and share no component, unless one was made inside the other. -/
def Apart (one other : ImportInstance) : Prop :=
  one ≠ other ∧
    (one ∈ other.copy.instances ∨ other ∈ one.copy.instances ∨ one.names.Disjoint other.names)

instance : Std.Symm Apart where
  symm := by
    rintro one other ⟨different, inOther | inOne | disjoint⟩
    · exact ⟨different.symm, .inr (.inl inOther)⟩
    · exact ⟨different.symm, .inl inOne⟩
    · exact ⟨different.symm, .inr (.inr disjoint.symm)⟩

theorem apart_of_disjoint {one other : ImportInstance} (disjoint : one.names.Disjoint other.names) :
    Apart one other := by
  refine ⟨?_, .inr (.inr disjoint)⟩
  rintro rfl
  exact disjoint one.copy.name_mem_names one.copy.name_mem_names

end ImportInstance

namespace Expansion

open ImportInstance (Apart)

/-- Copies that are made in different places of a list are apart. -/
theorem pairwise_apart_of {inside : List Expansion} (distinct : (inside.flatMap names).Nodup)
    (each : ∀ inner ∈ inside, inner.names.Nodup → inner.instances.Pairwise Apart) :
    (instancesAll inside).Pairwise Apart := by
  obtain ⟨alone, disjoint⟩ := List.nodup_flatMap.mp distinct
  rw [instancesAll_eq, List.pairwise_flatMap]
  refine ⟨fun inner isChild => each inner isChild (alone inner isChild), disjoint.imp ?_⟩
  intro one other apart made inOne madeOther inOther
  refine ImportInstance.apart_of_disjoint fun name inMade inMadeOther => ?_
  exact apart (names_copy_subset inOne inMade) (names_copy_subset inOther inMadeOther)

/-- Where the names of an expanded component differ, the copies in it are apart. -/
theorem pairwise_apart {expansion : Expansion} (distinct : expansion.names.Nodup) :
    expansion.instances.Pairwise Apart := by
  induction expansion using induction with
  | plain written name inside each =>
      rw [names_plain] at distinct
      exact pairwise_apart_of (List.nodup_cons.mp distinct).2 each
  | imported written document copy inside copied each =>
      rw [names_imported, List.nodup_append'] at distinct
      obtain ⟨inCopy, inChildren, disjoint⟩ := distinct
      have across {made other : ImportInstance} (subset : made.names ⊆ copy.names)
          (membership : other ∈ instancesAll inside) : Apart made other := by
        rw [instancesAll_eq, List.mem_flatMap] at membership
        obtain ⟨inner, isChild, member⟩ := membership
        refine ImportInstance.apart_of_disjoint fun name inMade inOther => ?_
        exact disjoint (subset inMade)
          (List.mem_flatMap.mpr ⟨inner, isChild, names_copy_subset member inOther⟩)
      rw [instances, List.pairwise_append, List.pairwise_cons]
      refine ⟨copied inCopy, ⟨fun other => across (List.Subset.refl _),
        pairwise_apart_of inChildren each⟩, fun made member other membership => ?_⟩
      rcases List.mem_cons.mp membership with rfl | inChild
      · refine ⟨?_, .inl member⟩
        rintro rfl
        exact Nat.lt_irrefl _ (sizeOf_copy_lt member)
      · exact across (names_copy_subset member) inChild

end Expansion

/-! ## Contributed connections -/

namespace ImportInstance

/-- Whether the document has a component of a name in the copied tree. -/
def covers (made : ImportInstance) (name : String) : Bool :=
  (made.copy.written.preorder.map Component.name).contains name

/-- The name in the copy of a component of the document. -/
def rename (made : ImportInstance) (name : String) : String :=
  (made.copy.newNames.reverse.lookup name).getD name

/-- A connection of the document between the components of the copy. -/
def carry (made : ImportInstance) (connection : Connection) : Connection :=
  ⟨made.rename connection.first, made.rename connection.second, connection.pairs⟩

variable {library : Library} {made : ImportInstance}

theorem keys_newNames (isMade : made.copy.IsMadeBy library .fresh) :
    made.copy.newNames.map Prod.fst = made.copy.written.preorder.map Component.name := by
  rw [← isMade.map_written_preorder, Expansion.newNames, List.map_map, List.map_map]
  rfl

theorem lookup_newNames (isMade : made.copy.IsMadeBy library .fresh) (name : String) :
    made.copy.newNames.reverse.lookup name =
      if made.covers name then some (made.rename name) else none := by
  have covered : made.covers name = (made.copy.newNames.reverse.lookup name).isSome := by
    rw [Bool.eq_iff_iff, covers, List.contains_iff_mem, ← keys_newNames isMade,
      List.lookup_isSome_iff, List.mem_map]
    simp only [List.mem_reverse, beq_iff_eq]
    exact exists_congr fun _ => and_congr_right fun _ => eq_comm
  rw [covered, rename]
  cases made.copy.newNames.reverse.lookup name with
  | none => rfl
  | some other => rfl

/-- A copy contributes the connections of its document with both ends in the copied tree. -/
theorem contributed_eq (isMade : made.copy.IsMadeBy library .fresh) :
    made.contributed =
      (made.document.connections.filter fun connection =>
        made.covers connection.first && made.covers connection.second).map made.carry := by
  have renamed (connection : Connection) :
      connection.rename? made.copy.newNames.reverse =
        if made.covers connection.first && made.covers connection.second then
          some (made.carry connection) else none := by
    rw [Connection.rename?, lookup_newNames isMade, lookup_newNames isMade]
    cases made.covers connection.first <;> cases made.covers connection.second <;> rfl
  rw [contributed, List.filterMap_congr fun connection _ => renamed connection,
    ← List.filterMap_filter]
  exact List.filterMap_eq_map_iff_forall_eq_some.mpr fun _ _ => rfl

/-- Where the names in the document differ, every component of the copied tree has its own
counterpart in the copy. -/
theorem rename_written (isMade : made.copy.IsMadeBy library .fresh)
    (distinct : (made.copy.written.preorder.map Component.name).Nodup) {inner : Expansion}
    (membership : inner ∈ made.copy.preorder) : made.rename inner.written.name = inner.name := by
  have listed : (inner.written.name, inner.name) ∈ made.copy.newNames.reverse :=
    List.mem_reverse.mpr (List.mem_map.mpr ⟨inner, membership, rfl⟩)
  have once : (made.copy.newNames.reverse.map Prod.fst).Nodup := by
    rw [List.map_reverse, List.nodup_reverse, keys_newNames isMade]
    exact distinct
  obtain ⟨before, after, split⟩ := List.append_of_mem listed
  have found : made.copy.newNames.reverse.lookup inner.written.name = some inner.name := by
    rw [List.lookup_eq_some_iff]
    refine ⟨before, after, split, fun entry isBefore => ?_⟩
    rw [split, List.map_append, List.nodup_append] at once
    rw [bne_iff_ne]
    exact (once.2.2 entry.1 (List.mem_map_of_mem isBefore) _ List.mem_cons_self).symm
  rw [rename, found, Option.getD_some]

end ImportInstance

/-- A copy is faithful: it is one of what a source of the library names, and it contributes the
connections of the document that lie in the copied tree, with both ends renamed to those components
of this copy that stand for the ends. -/
structure Library.IsFaithful (library : Library) (made : ImportInstance) : Prop where
  found : ∃ source, library.definition? source = some (made.document, made.copy.written)
  standsFor : library.StandsFor .fresh made.copy.written made.copy.component
  contributed : made.contributed =
    (made.document.connections.filter fun connection =>
      made.covers connection.first && made.covers connection.second).map made.carry
  renamed : ∀ written ∈ made.copy.written.preorder, ∃ result ∈ made.copy.component.preorder,
    result.name = made.rename written.name ∧ library.StandsFor .fresh written result
  injective : ∀ one other, made.covers one → made.covers other →
    made.rename one = made.rename other → one = other

namespace Expansion.IsMadeBy

variable {library : Library} {naming : Naming} {expansion : Expansion} {made : ImportInstance}

/-- All copies are faithful where the names in the documents and the new names differ. -/
theorem isFaithful (isMade : expansion.IsMadeBy library naming)
    (distinct : expansion.names.Nodup)
    (documents : ∀ url document, library.get? url = some document →
      (document.preorder.map Component.name).Nodup)
    (membership : made ∈ expansion.instances) : library.IsFaithful made := by
  obtain ⟨⟨source, found⟩, isCopied⟩ := isMade.of_mem_instances membership
  obtain ⟨foundDocument, foundComponent⟩ := Library.definition?_eq_some.mp found
  have writtenNames : (made.copy.written.preorder.map Component.name).Nodup :=
    ((Component.preorderAll_sublist (List.mem_of_find?_eq_some foundComponent)).map _).nodup
      (documents _ _ foundDocument)
  have newNames : (made.copy.preorder.map name).Nodup :=
    (made.copy.names_perm.nodup_iff.mp
      (distinct.sublist (names_copy_sublist membership))).of_append_left
  have named {inner : Expansion} (isInner : inner ∈ made.copy.preorder) :=
    ImportInstance.rename_written isCopied writtenNames isInner
  have covered {word : String} (covers : made.covers word) :
      ∃ inner ∈ made.copy.preorder, inner.written.name = word := by
    rw [ImportInstance.covers, List.contains_iff_mem, ← isCopied.map_written_preorder,
      List.map_map] at covers
    exact List.mem_map.mp covers
  refine ⟨⟨source, found⟩, isCopied.standsFor nofun, ImportInstance.contributed_eq isCopied, ?_, ?_⟩
  · rw [← isCopied.map_written_preorder]
    intro written isWritten
    obtain ⟨inner, isInner, rfl⟩ := List.mem_map.mp isWritten
    exact ⟨inner.component, component_mem_preorder isInner,
      inner.name_component.trans (named isInner).symm,
      (isCopied.of_mem_preorder isInner).1.standsFor nofun⟩
  · intro one other coversOne coversOther same
    obtain ⟨inner, isInner, rfl⟩ := covered coversOne
    obtain ⟨innerOther, isInnerOther, rfl⟩ := covered coversOther
    rw [named isInner, named isInnerOther] at same
    rw [List.inj_on_of_nodup_map newNames isInner isInnerOther same]

end Expansion.IsMadeBy

/-! ## Flattened models -/

/-- Whether a connection joins a component of one copy to a component of another. -/
def Connection.Joins (connection : Connection) (one other : ImportInstance) : Prop :=
  connection.first ∈ one.names ∧ connection.second ∈ other.names ∨
    connection.first ∈ other.names ∧ connection.second ∈ one.names

theorem Connection.Joins.symm {connection : Connection} {one other : ImportInstance}
    (joins : connection.Joins one other) : connection.Joins other one :=
  Or.symm joins

theorem Library.IsFaithful.mem_names {library : Library} {made : ImportInstance}
    (faithful : library.IsFaithful made) {connection : Connection}
    (membership : connection ∈ made.contributed) :
    connection.first ∈ made.names ∧ connection.second ∈ made.names := by
  have inside {name : String} (covers : made.covers name) : made.rename name ∈ made.names := by
    rw [ImportInstance.covers, List.contains_iff_mem] at covers
    obtain ⟨written, isWritten, rfl⟩ := List.mem_map.mp covers
    obtain ⟨result, isResult, named, -⟩ := faithful.renamed written isWritten
    exact List.mem_map.mpr ⟨result, isResult, named⟩
  rw [faithful.contributed] at membership
  obtain ⟨written, isWritten, rfl⟩ := List.mem_map.mp membership
  obtain ⟨coversFirst, coversSecond⟩ := Bool.and_eq_true_iff.mp (List.mem_filter.mp isWritten).2
  exact ⟨inside coversFirst, inside coversSecond⟩

section

variable {library : Library} {model flat : Model} {expansions : List Expansion}

open ImportInstance (Apart)

theorem Library.Unfolds.connections_eq (unfolds : library.Unfolds model flat expansions) :
    ∃ own, own.Sublist model.connections ∧ flat.connections =
      own ++ (Expansion.instancesAll expansions).flatMap ImportInstance.contributed := by
  obtain ⟨own, isOwn, all⟩ := unfolds.connections
  refine ⟨own, isOwn, all.trans ?_⟩
  rw [Expansion.instancesAll_eq, List.flatMap_assoc]
  rfl

theorem Library.Unfolds.names_eq (unfolds : library.Unfolds model flat expansions) :
    flat.preorder.map Component.name = expansions.flatMap Expansion.names := by
  rw [unfolds.preorder_eq, List.map_flatMap]
  rfl

/-- What two copies that are apart have nothing of in common is joined only by a copy in which both
were made. -/
theorem inside_of_joins {instances : List ImportInstance}
    (apart : ∀ one ∈ instances, ∀ other ∈ instances, one ≠ other → Apart one other)
    (faithful : ∀ made ∈ instances, library.IsFaithful made)
    {one other made : ImportInstance} (isOne : one ∈ instances) (isMade : made ∈ instances)
    (disjoint : one.names.Disjoint other.names) {connection : Connection}
    (contributed : connection ∈ made.contributed) (joins : connection.Joins one other) :
    one ∈ made.copy.instances := by
  obtain ⟨first, second⟩ := (faithful made isMade).mem_names contributed
  -- The connection has one end in each of the two copies, and both of its ends in its own copy.
  obtain ⟨shared, foreign⟩ : (∃ name ∈ made.names, name ∈ one.names) ∧
      ∃ name ∈ made.names, name ∈ other.names := by
    rcases joins with ⟨firstIn, secondIn⟩ | ⟨firstIn, secondIn⟩
    · exact ⟨⟨_, first, firstIn⟩, _, second, secondIn⟩
    · exact ⟨⟨_, second, secondIn⟩, _, first, firstIn⟩
  obtain ⟨name, inMade, inOther⟩ := foreign
  have outside : ¬made.names ⊆ one.names := fun subset => disjoint (subset inMade) inOther
  have different : made ≠ one := by
    rintro rfl
    exact outside (List.Subset.refl _)
  obtain ⟨-, inside | inside | apart⟩ := apart made isMade one isOne different
  · exact absurd (Expansion.names_copy_subset inside) outside
  · exact inside
  · obtain ⟨name, inMade, inOne⟩ := shared
    exact absurd inOne (apart inMade)

/-- A flattened model has, besides connections of its own, those that its copies contribute. Every
copy is faithful. Two copies of which none was made inside the other share no component; no
connection that one of them contributes joins them, and where another one does, it comes from a
copy in which both were made. -/
theorem Library.flatten_instances
    (distinct : (model.preorder.map Component.name).Nodup)
    (documents : ∀ url document, library.get? url = some document →
      (document.preorder.map Component.name).Nodup)
    (flattened : library.flatten model = .ok flat) :
    ∃ expansions, library.Unfolds model flat expansions ∧
      (∃ own, own.Sublist model.connections ∧ flat.connections =
        own ++ (Expansion.instancesAll expansions).flatMap ImportInstance.contributed) ∧
      (Expansion.instancesAll expansions).Nodup ∧
      (∀ made ∈ Expansion.instancesAll expansions,
        library.IsFaithful made ∧ made.names ⊆ flat.preorder.map Component.name) ∧
      ∀ one ∈ Expansion.instancesAll expansions, ∀ other ∈ Expansion.instancesAll expansions,
        one ≠ other → one ∉ other.copy.instances → other ∉ one.copy.instances →
          one.names.Disjoint other.names ∧
            (∀ connection ∈ one.contributed ++ other.contributed, ¬connection.Joins one other) ∧
            ∀ made ∈ Expansion.instancesAll expansions, ∀ connection ∈ made.contributed,
              connection.Joins one other →
                one ∈ made.copy.instances ∧ other ∈ made.copy.instances := by
  obtain ⟨expansions, unfolds⟩ := Library.exists_unfolding flattened
  have names := unfolds.nodup_names distinct
  rw [unfolds.names_eq] at names
  have faithful (made : ImportInstance) (isMade : made ∈ Expansion.instancesAll expansions) :
      library.IsFaithful made ∧ made.names ⊆ flat.preorder.map Component.name := by
    rw [Expansion.instancesAll_eq, List.mem_flatMap] at isMade
    obtain ⟨expansion, isTop, member⟩ := isMade
    rw [unfolds.names_eq]
    refine ⟨(unfolds.made expansion isTop).isFaithful ((List.nodup_flatMap.mp names).1 _ isTop)
      documents member, fun name inMade => ?_⟩
    exact List.mem_flatMap.mpr ⟨expansion, isTop, Expansion.names_copy_subset member inMade⟩
  have pairwise : (Expansion.instancesAll expansions).Pairwise Apart :=
    Expansion.pairwise_apart_of names fun _ _ => Expansion.pairwise_apart
  have apart : ∀ one ∈ Expansion.instancesAll expansions,
      ∀ other ∈ Expansion.instancesAll expansions, one ≠ other → Apart one other :=
    fun _ isOne _ isOther => pairwise.forall isOne isOther
  refine ⟨expansions, unfolds, unfolds.connections_eq, pairwise.imp And.left, faithful, ?_⟩
  intro one isOne other isOther different outsideOther outsideOne
  obtain ⟨-, inOther | inOne | disjoint⟩ := apart one isOne other isOther different
  · exact absurd inOther outsideOther
  · exact absurd inOne outsideOne
  have inside (made : ImportInstance) (isMade : made ∈ Expansion.instancesAll expansions)
      (connection : Connection) (contributed : connection ∈ made.contributed)
      (joins : connection.Joins one other) :
      one ∈ made.copy.instances ∧ other ∈ made.copy.instances := by
    have alone (made : ImportInstance) (isMade : made ∈ Expansion.instancesAll expansions) :=
      (faithful made isMade).1
    exact ⟨inside_of_joins apart alone isOne isMade disjoint contributed joins,
      inside_of_joins apart alone isOther isMade disjoint.symm contributed joins.symm⟩
  refine ⟨disjoint, fun connection contributed joins => ?_, inside⟩
  rcases List.mem_append.mp contributed with byOne | byOther
  · exact outsideOne (inside one isOne connection byOne joins).2
  · exact outsideOther (inside other isOther connection byOther joins).1

end

/-! ## A joined pair -/

theorem documents_tissueLibrary (url : String) (document : Model)
    (found : tissueLibrary.get? url = some document) :
    (document.preorder.map Component.name).Nodup := by
  obtain ⟨before, after, split, -⟩ := List.lookup_eq_some_iff.mp found
  have listed : (url, document) ∈ tissueLibrary.models :=
    split ▸ List.mem_append_right _ List.mem_cons_self
  rcases List.mem_pair.mp listed with same | same
  · rw [(Prod.mk.inj same).2]
    decide
  · rw [(Prod.mk.inj same).2]
    decide

theorem flatten_instances_tissue :
    ∃ flat, tissueLibrary.flatten tissue = .ok flat ∧
      ∃ expansions, tissueLibrary.Unfolds tissue flat expansions ∧
        (Expansion.instancesAll expansions).Nodup ∧
        ∀ made ∈ Expansion.instancesAll expansions, tissueLibrary.IsFaithful made := by
  have flattened := (rfl : tissueLibrary.flatten tissue = _)
  obtain ⟨expansions, unfolds, -, nodup, faithful, -⟩ :=
    Library.flatten_instances (by decide) documents_tissueLibrary flattened
  exact ⟨_, rfl, expansions, unfolds, nodup, fun made isMade => (faithful made isMade).1⟩

/-- The copy of the membrane, with new names for it and its channel. -/
def membraneCopy (name channel : String) : ImportInstance where
  document := membraneDocument
  copy :=
    .plain
      ⟨"membrane", [⟨"V", "volt", none, some .publicAndPrivate⟩], none,
        [⟨"channel", [⟨"V", "volt", none, some .public⟩], none, [], none⟩], none⟩
      name
      [.plain ⟨"channel", [⟨"V", "volt", none, some .public⟩], none, [], none⟩ channel []]

/-- The copy of the junction, in which the membranes have been copied. -/
def junctionCopy : ImportInstance where
  document := junctionDocument
  copy :=
    .plain
      ⟨"junction", [], none, [
        ⟨"left", [], none, [], some ⟨"membrane.json", "membrane"⟩⟩,
        ⟨"right", [], none, [], some ⟨"membrane.json", "membrane"⟩⟩], none⟩
      "cleft"
      [.imported ⟨"left", [], none, [], some ⟨"membrane.json", "membrane"⟩⟩ membraneDocument
          (membraneCopy "left" "channel_2").copy [],
        .imported ⟨"right", [], none, [], some ⟨"membrane.json", "membrane"⟩⟩ membraneDocument
          (membraneCopy "right" "channel_3").copy []]

/-- What becomes of the components of the tissue. -/
def tissueExpansions : List Expansion :=
  [.imported
    ⟨"cleft", [], none, [⟨"channel", [], none, [], none⟩], some ⟨"junction.json", "junction"⟩⟩
    junctionDocument junctionCopy.copy [.plain ⟨"channel", [], none, [], none⟩ "channel" []]]

theorem isMadeBy_membraneCopy (name channel : String) :
    (membraneCopy name channel).copy.IsMadeBy tissueLibrary .fresh := by
  refine .plain rfl rfl nofun ?_
  rw [List.forall_mem_singleton]
  exact .plain rfl rfl nofun (by simp)

theorem isMadeBy_junctionCopy : junctionCopy.copy.IsMadeBy tissueLibrary .fresh := by
  refine .plain rfl rfl nofun ?_
  rw [List.forall_mem_cons, List.forall_mem_singleton]
  exact ⟨.imported rfl rfl (isMadeBy_membraneCopy _ _) rfl nofun (by simp),
    .imported rfl rfl (isMadeBy_membraneCopy _ _) rfl nofun (by simp)⟩

theorem instances_tissue :
    Expansion.instancesAll tissueExpansions =
      [membraneCopy "left" "channel_2", membraneCopy "right" "channel_3", junctionCopy] := rfl

theorem unfolds_tissue {flat : Model} (flattened : tissueLibrary.flatten tissue = .ok flat) :
    tissueLibrary.Unfolds tissue flat tissueExpansions := by
  obtain rfl := Except.ok.inj flattened
  refine ⟨rfl, ?_, ?_, rfl, fun _ => by decide, [], List.nil_sublist _, rfl⟩
  · rw [tissueExpansions, List.forall_mem_singleton]
    rfl
  · rw [tissueExpansions, List.forall_mem_singleton]
    refine .imported rfl rfl isMadeBy_junctionCopy rfl (fun _ => ?_) ?_
    · rw [List.forall_mem_singleton]
      rfl
    · rw [List.forall_mem_singleton]
      exact .plain rfl rfl (by simp) (by simp)

/-- The two membranes of the tissue were not made inside each other, and the junction in which both
were made contributes a connection that joins them. -/
theorem tissue_membranes_joined :
    ∃ flat, tissueLibrary.flatten tissue = .ok flat ∧
      (tissue.preorder.map Component.name).Nodup ∧
      (∀ url document, tissueLibrary.get? url = some document →
        (document.preorder.map Component.name).Nodup) ∧
      ∃ expansions, tissueLibrary.Unfolds tissue flat expansions ∧
        ∃ one ∈ Expansion.instancesAll expansions, ∃ other ∈ Expansion.instancesAll expansions,
          one ≠ other ∧ one ∉ other.copy.instances ∧ other ∉ one.copy.instances ∧
            ∃ made ∈ Expansion.instancesAll expansions, ∃ connection ∈ made.contributed,
              connection ∈ flat.connections ∧ connection.Joins one other := by
  have different : membraneCopy "left" "channel_2" ≠ membraneCopy "right" "channel_3" := by
    intro same
    have names : "left" = "right" := congrArg (fun made => made.copy.name) same
    exact absurd names (by decide)
  refine ⟨_, rfl, by decide, documents_tissueLibrary, tissueExpansions, unfolds_tissue rfl, ?_⟩
  rw [instances_tissue]
  refine ⟨membraneCopy "left" "channel_2", by simp, membraneCopy "right" "channel_3", by simp,
    different, List.not_mem_nil, List.not_mem_nil, junctionCopy, by simp,
    ⟨"left", "right", [⟨"V", "V"⟩]⟩, ?_, ?_, ?_⟩
  · exact List.mem_singleton.mpr rfl
  · exact List.mem_cons_of_mem _ (List.mem_cons_of_mem _ (List.mem_singleton.mpr rfl))
  · exact .inl ⟨List.mem_cons_self, List.mem_cons_self⟩

end ComponentModel
