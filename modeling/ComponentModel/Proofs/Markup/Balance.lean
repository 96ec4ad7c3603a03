import ComponentModel.Proofs.Markup.Nesting

/-!
# Balanced pieces

Pieces are nested into elements only if their start and end tags balance. So a text is either read
as a whole or refused; no part of a text that breaks off is ever read.
-/

namespace ComponentModel.Markup

/-- Every start tag has an end tag of its name behind it, and what stands between them is balanced
again. -/
inductive Balanced : List Piece → Prop where
  | nil : Balanced []
  | segment (text : String) : Balanced [.segment text]
  | empty (name : String) (attributes : List (String × String)) :
      Balanced [.empty name attributes]
  | append {first second : List Piece} (balancedFirst : Balanced first)
      (balancedSecond : Balanced second) : Balanced (first ++ second)
  | element (name : String) (attributes : List (String × String)) {inner : List Piece}
      (balancedInner : Balanced inner) :
      Balanced (.opening name attributes :: inner ++ [.closing name])

/-- Whether pieces close the elements that are pending, innermost first, and all that they open. -/
def closes : (pending : List String) → List Piece → Bool
  | pending, [] => pending.isEmpty
  | pending, .opening name _ :: rest => closes (name :: pending) rest
  | pending, .empty _ _ :: rest => closes pending rest
  | pending, .segment _ :: rest => closes pending rest
  | [], .closing _ :: _ => false
  | opened :: pending, .closing name :: rest => opened == name && closes pending rest

/-- Balanced pieces leave what is pending as it is. -/
theorem Balanced.closes_append {pieces : List Piece} (balanced : Balanced pieces)
    (pending : List String) (behind : List Piece) :
    closes pending (pieces ++ behind) = closes pending behind := by
  induction balanced generalizing pending behind with
  | nil => rfl
  | segment => rfl
  | empty => rfl
  | append _ _ ihFirst ihSecond => rw [List.append_assoc, ihFirst, ihSecond]
  | element name attributes _ ih =>
      rw [List.append_assoc, List.cons_append, closes, ih, List.singleton_append, closes,
        beq_self_eq_true, Bool.true_and]

/-- Pieces in which the end tags of all pending names stand in order, with balanced pieces in front
of each and behind the last. -/
def Finishes : (pending : List String) → List Piece → Prop
  | [], pieces => Balanced pieces
  | name :: pending, pieces =>
      ∃ inner behind, pieces = inner ++ .closing name :: behind ∧ Balanced inner ∧
        Finishes pending behind

theorem Finishes.append {pending : List String} {front pieces : List Piece}
    (finishes : Finishes pending pieces) (balanced : Balanced front) :
    Finishes pending (front ++ pieces) := by
  cases pending with
  | nil => exact balanced.append finishes
  | cons name pending =>
      obtain ⟨inner, behind, rfl, balancedInner, finishes⟩ := finishes
      exact ⟨front ++ inner, behind, by simp, balanced.append balancedInner, finishes⟩

/-- The induction is over the pieces, for any names pending in front of them: a start tag makes one
more name pending, and what its end tag closes off is balanced. -/
theorem finishes_of_closes {pending : List String} {pieces : List Piece}
    (closed : closes pending pieces = true) : Finishes pending pieces := by
  induction pieces generalizing pending with
  | nil =>
      obtain rfl : pending = [] := by simpa [closes] using closed
      exact .nil
  | cons piece rest ih =>
      cases piece with
      | opening name attributes =>
          have inside : Finishes (name :: pending) rest := ih closed
          obtain ⟨inner, behind, rfl, balanced, finishes⟩ := inside
          simpa using finishes.append (.element name attributes balanced)
      | empty name attributes => exact (ih closed).append (.empty name attributes)
      | segment text => exact (ih closed).append (.segment text)
      | closing name =>
          cases pending with
          | nil => cases closed
          | cons opened pending =>
              obtain ⟨same, closed⟩ : opened = name ∧ closes pending rest = true := by
                simpa [closes] using closed
              exact ⟨[], rest, by simp [same], .nil, ih closed⟩

theorem balanced_iff_closes {pieces : List Piece} :
    Balanced pieces ↔ closes [] pieces = true := by
  constructor
  · intro balanced
    simpa [closes] using balanced.closes_append [] []
  · exact finishes_of_closes

instance (pieces : List Piece) : Decidable (Balanced pieces) :=
  decidable_of_iff _ balanced_iff_closes.symm

/-- Putting an element in its place leaves the same names pending. -/
theorem Nesting.names_place (nesting : Nesting) (element : Element) :
    (nesting.place element).pending.map Prod.fst = nesting.pending.map Prod.fst := by
  unfold place
  split
  next isPending => simp [isPending]
  next nothing => rfl

/-- One step of a run is one step of closing what is pending. -/
theorem Nesting.closes_of_step {nesting next : Nesting} {piece : Piece} {rest : List Piece}
    (stepped : nesting.step piece = some next)
    (closed : closes (next.pending.map Prod.fst) rest = true) :
    closes (nesting.pending.map Prod.fst) (piece :: rest) = true := by
  obtain ⟨pending, roots⟩ := nesting
  cases piece with
  | opening name attributes =>
      obtain rfl := Option.some.inj stepped
      exact closed
  | empty name attributes =>
      obtain rfl := Option.some.inj stepped
      rwa [names_place] at closed
  | segment text =>
      cases pending with
      | nil =>
          obtain rfl := Option.some.inj stepped
          exact closed
      | cons opened pending =>
          obtain rfl := Option.some.inj stepped
          exact closed
  | closing name =>
      cases pending with
      | nil => cases stepped
      | cons opened pending =>
          simp only [step] at stepped
          split at stepped
          case isFalse => cases stepped
          case isTrue same =>
            obtain rfl := Option.some.inj stepped
            rw [names_place] at closed
            simp [closes, same, closed]

/-- A run that leaves nothing open has closed all that was open before. -/
theorem Nesting.closes_of_run {nesting : Nesting} {pieces : List Piece} {roots : List Element}
    (nested : nesting.run pieces = some ⟨[], roots⟩) :
    closes (nesting.pending.map Prod.fst) pieces = true := by
  induction pieces generalizing nesting with
  | nil =>
      obtain rfl : nesting = ⟨[], roots⟩ := Option.some.inj nested
      rfl
  | cons piece rest ih =>
      rw [run] at nested
      split at nested
      next next stepped =>
        exact closes_of_step stepped (ih nested)
      next => cases nested

theorem balanced_of_readMath {text : String} {roots : List Element}
    (read : readMath text = .ok roots) :
    ∃ pieces, pieces? text = some pieces ∧ Balanced pieces := by
  unfold readMath at read
  split at read
  next => cases read
  next pieces cut =>
    refine ⟨pieces, cut, balanced_iff_closes.mpr ?_⟩
    unfold Element.ofPieces at read
    split at read
    next => cases read
    next => cases read
    next nested => exact Nesting.closes_of_run nested

/-! ## What is read -/

/-- Reading gives written `math` elements back, a number in parts with its parts in order, and reads
nothing from a text whose start and end tags do not balance. -/
theorem readMath_gives_back_or_refuses :
    (∀ content : Content, (∀ root ∈ content.elements, root.name = "math") →
      readMath content.document = .ok content.elements) ∧
    (∀ (tag : Tag) (content : Content) (parts : List String), content.IsInParts parts →
      (Element.mk tag.name tag.attributes content.elements content.ownText).textParts =
        parts.map Text.trim) ∧
    ∀ text : String, (∀ pieces, pieces? text = some pieces → ¬Balanced pieces) →
      ∃ fault, readMath text = .error fault := by
  refine ⟨fun content isMath => readMath_document isMath,
    fun tag content parts inParts => inParts.textParts tag.name tag.attributes,
    fun text unbalanced => ?_⟩
  cases read : readMath text with
  | error fault => exact ⟨fault, rfl⟩
  | ok roots =>
      obtain ⟨pieces, cut, balanced⟩ := balanced_of_readMath read
      exact absurd balanced (unbalanced pieces cut)

/-- A tag without attributes. -/
def Tag.bare (name : String) (named : IsPlainName name) : Tag where
  name := name
  attributes := []
  named := named
  attributesNamed := by simp
  unquoted := by simp
  distinct := by simp

/-- A mantissa and an exponent, with a blank behind the separator. -/
def mantissaAndExponent : Content :=
  .empty ⟨"1.5", by decide +kernel⟩ (.bare "sep" (by decide +kernel))
    (.ends ⟨" -3", by decide +kernel⟩)

/-- A number in parts inside `math`, indented by one blank. -/
def writtenNumber : Content :=
  .nested ⟨"", by decide +kernel⟩ (.bare "math" (by decide +kernel))
    (.nested ⟨" ", by decide +kernel⟩
      ⟨"cn", [("type", "e-notation")], by decide +kernel, by decide +kernel, by decide +kernel,
        by decide +kernel⟩
      mantissaAndExponent (.ends ⟨"", by decide +kernel⟩))
    (.ends ⟨"", by decide +kernel⟩)

theorem writtenNumber_given_back :
    writtenNumber.document = "<math> <cn type=\"e-notation\">1.5<sep/> -3</cn></math>" ∧
    readMath writtenNumber.document = .ok [⟨"math", [],
      [⟨"cn", [("type", "e-notation")], [⟨"sep", [], [], "-3"⟩], "1.5"⟩], ""⟩] ∧
    (Element.mk "cn" [("type", "e-notation")] mantissaAndExponent.elements
      mantissaAndExponent.ownText).textParts = ["1.5", "-3"] ∧
    ∃ fault, readMath "<math><apply></math>" = .error fault := by
  obtain ⟨givenBack, inParts, refused⟩ := readMath_gives_back_or_refuses
  have elements : writtenNumber.elements = [⟨"math", [],
      [⟨"cn", [("type", "e-notation")], [⟨"sep", [], [], "-3"⟩], "1.5"⟩], ""⟩] := by
    rfl
  refine ⟨by decide +kernel, ?_, ?_, ?_⟩
  · rw [← elements]
    exact givenBack writtenNumber (by simp [elements])
  · have parts : mantissaAndExponent.IsInParts ["1.5", " -3"] := .empty _ rfl (.last _)
    exact (inParts ⟨"cn", [("type", "e-notation")], by decide +kernel, by decide +kernel,
      by decide +kernel, by decide +kernel⟩ mantissaAndExponent _ parts).trans (by decide +kernel)
  · refine refused _ fun pieces cut => ?_
    have found : pieces? "<math><apply></math>" =
        some [.opening "math" [], .opening "apply" [], .closing "math"] := by decide +kernel
    obtain rfl := Option.some.inj (cut.symm.trans found)
    decide

end ComponentModel.Markup
