import ComponentModel.Proofs.Adoption
import ComponentModel.Proofs.Determination
import ComponentModel.Proofs.Explicit
import ComponentModel.Proofs.Initialisation
import Mathlib

/-!
# Variables that are computed more than once

When an analysis reports that a variable is computed more than once, it is: the class of the
variable has an initial value or an equation computes it, and another equation, which is never
given an order, refers to the class and to nothing else.
-/

namespace ComponentModel.Analysis

open Equation (Role)

namespace Stage

variable {model : Model} {declaration record number : Nat}

/-- An equation that has been given an order computes the class of a declaration. -/
def IsComputed (model : Model) (declaration : Nat) : Prop :=
  ∃ (number : Nat) (equation : OrderedEquation) (record : Nat),
    (final model).equations[number]? = some equation ∧
    equation.order.isSome ∧ equation.computes = some record ∧
    (final model).registry.find? (index model) declaration = some record

/-- An equation refers to the class of a declaration in a role and to nothing else, and has not been
given an order when the elimination ends. -/
structure Repeats (model : Model) (declaration number : Nat) (source : OrderedEquation)
    (role : Role) : Prop where
  found : (built model)[number]? = some source
  waiting : ∃ equation, (final model).equations[number]? = some equation ∧ equation.order = none
  asking : role ≠ .bound
  refers : ∃ other, (role, other) ∈ source.expr.mentions .plain ∧
    (index model).equivalent other declaration
  alone : ∀ mention ∈ source.expr.mentions .plain, mention.1 ≠ .bound →
    mention.1 = role ∧ (index model).equivalent mention.2 declaration

/-- An equation for which a class is marked refers to it and to nothing else. -/
theorem exists_repeats {source : OrderedEquation} {item : Item}
    (recorded : (final model).registry.find? (index model) declaration = some record)
    (marked : Elimination.MarkedFor (start model) (final model) record number source item) :
    ∃ role, Repeats model declaration number source role := by
  obtain ⟨found, single, rfl, equation, foundFinal, waiting, -⟩ := marked
  have found := start_getElem?.mp found
  have membership := List.mem_of_getElem? found
  have same {role : Role} {other : Nat} (mentioned : (role, other) ∈ source.expr.mentions .plain)
      (recordedOther : (final model).registry.find? (index model) other = some item.number) :
      (index model).equivalent other declaration :=
    (find?_eq_iff (mentioned_lt membership mentioned)).mp (recordedOther.trans recorded.symm)
  obtain ⟨role, asking, asks⟩ := item.exists_ofRole
  refine ⟨role, found, ⟨equation, foundFinal, waiting⟩, asking, ?_, ?_⟩
  · have asked : Item.ofRole role item.number ∈ source.items := by simp [asks, single]
    obtain ⟨other, mentioned, recordedOther⟩ := (ofRole_mem_items membership asking).mp asked
    exact ⟨other, mentioned, same mentioned recordedOther⟩
  · rintro ⟨roleOther, other⟩ mentioned askingOther
    obtain ⟨recordOther, recordedOther⟩ :=
      Option.isSome_iff_exists.mp ((refers model membership).found _ mentioned)
    have asked := (ofRole_mem_items membership askingOther).mpr ⟨other, mentioned, recordedOther⟩
    rw [single, List.mem_singleton] at asked
    have number_eq := congrArg Item.number asked
    rw [Item.number_ofRole] at number_eq
    exact ⟨Item.ofRole_injective askingOther asking (asked.trans asks.symm),
      same mentioned (number_eq ▸ recordedOther)⟩

/-- A class that is marked has an initial value, or an equation computes it. -/
theorem isGiven_or_isComputed
    (inside : record < (final model).registry.length)
    (marked : ((final model).registry.get record).kind = .overconstrained) :
    ((index model).initialisedIn ((index model).classOf
        ((final model).registry.get record).declaration)).Nonempty ∨
      IsComputed model ((final model).registry.get record).declaration := by
  have computed (named : ((final model).registry.get record).equation.isSome) :
      IsComputed model ((final model).registry.get record).declaration := by
    obtain ⟨number, named⟩ := Option.isSome_iff_exists.mp named
    obtain ⟨equation, _, order, found, ordered, -, -, computes, -⟩ :=
      Elimination.exists_computing (ready model) (moves model) named
    exact ⟨number, equation, record, found, Option.isSome_of_eq_some ordered, computes,
      find?_declaration inside⟩
  cases Elimination.standing_of_moves (ready model) (moves model) record with
  | untouched same =>
      have initial := (ready model).initial record
      rw [← same, marked] at initial
      cases initial
  | twice given =>
      refine .inl ⟨((final model).registry.get record).initialDeclaration,
        Index.mem_initialisedIn.mpr ⟨initialDeclaration_lt inside, ?_, ?_⟩⟩
      · exact (belongs inside).initial.trans (belongs inside).declared.symm
      · rw [initialDeclaration_final, declaration_start]
        exact isGiven_start model record (.inr given)
  | value _ _ _ named => exact .inr (computed named)
  | rate _ _ _ named => exact .inr (computed named)

/-- An issue about a variable that is computed more than once is never a false alarm. The class of
the variable has an initial value, or an equation with an order computes it. Another equation, which
has not been given an order when the analysis ends and so never had one, refers to the class. It
refers to nothing else, so that there is nothing that had to be settled for it. -/
theorem computedTwice_justified {name : VariableName}
    (reported : .computedTwice name ∈ (analyse model).issues) :
    ∃ declaration < (index model).declarations.length,
      ((index model).declaration declaration).fullName = name ∧
      (((index model).initialisedIn ((index model).classOf declaration)).Nonempty ∨
        IsComputed model declaration) ∧
      ∃ number source role, Repeats model declaration number source role := by
  obtain ⟨record, isOpen⟩ := exists_openIssue reported Bool.false_ne_true
  have marked : ((final model).registry.get record).kind = .overconstrained ∧
      ((index model).declaration ((final model).registry.get record).declaration).fullName =
        name := by
    unfold openIssue? at isOpen
    cases kind : ((final model).registry.get record).kind <;> simp_all
  obtain ⟨marked, rfl⟩ := marked
  have inside : record < (final model).registry.length := by
    by_contra outside
    rw [Registry.get_of_length_le (Nat.le_of_not_lt outside)] at marked
    cases marked
  obtain ⟨number, source, item, justification⟩ :=
    (Elimination.loop_run (index model) (start model)).exists_markedFor (ready model) marked
  obtain ⟨role, repeats⟩ :=
    exists_repeats (find?_declaration inside) justification
  exact ⟨_, declaration_lt inside, rfl, isGiven_or_isComputed inside marked, number, source, role,
    repeats⟩

/-- A variable that is set twice, by `x = 3` and by `x = 4`. -/
def setTwice : Model :=
  single "set_twice" [⟨"x", "dimensionless", none, none⟩]
    ("<math><apply><eq/><ci>x</ci><cn>3</cn></apply>" ++
      "<apply><eq/><ci>x</ci><cn>4</cn></apply></math>")

theorem gathered_setTwice : Gathered.ofIndex (index setTwice) =
    ⟨[⟨0, 0, 0, .unknown, none, none⟩],
      [.new (.apply .assignment (.reference 0) (.number "3")) 0 [0] [],
       .new (.apply .assignment (.reference 0) (.number "4")) 0 [0] []], []⟩ := by
  cbv

theorem derivatives_setTwice :
    derivatives setTwice = ⟨Gathered.ofIndex (index setTwice), none⟩ := by
  rw [derivatives, gathered_setTwice]
  cbv

theorem registry_setTwice :
    (final setTwice).registry = [⟨0, 0, 0, .overconstrained, some 0, some 0⟩] := by
  rw [final, start, derivatives_setTwice, gathered_setTwice]
  cbv

theorem issues_setTwice :
    (analyse setTwice).issues = [.computedTwice ⟨"c", "x"⟩] := by
  have gathered : (Gathered.ofIndex (index setTwice)).issues = [] := by rw [gathered_setTwice]
  have derived : (derivatives setTwice).gathered.issues = [] := by
    rw [derivatives_setTwice, gathered]
  rw [analyse_eq_classify gathered derived, issues_classify]
  change List.filterMap (fun number => openIssue? (index setTwice)
    ((final setTwice).registry.get number)) _ = _
  rw [registry_setTwice, derivatives_setTwice, gathered_setTwice]
  cbv

theorem setTwice_justified : (analyse setTwice).issues = [.computedTwice ⟨"c", "x"⟩] ∧
    ∃ number source role, Repeats setTwice 0 number source role := by
  obtain ⟨declaration, inside, -, -, repeats⟩ :=
    computedTwice_justified (issues_setTwice ▸ List.mem_singleton_self _)
  obtain rfl : declaration = 0 := Nat.lt_one_iff.mp inside
  exact ⟨issues_setTwice, repeats⟩

end Stage

end ComponentModel.Analysis
