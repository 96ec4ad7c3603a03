import ComponentModel.Proofs.Markup.Scanning

/-!
# Nested elements

The pieces of written content are nested into its elements again, wherever the content stands:
what is open around it only gets its elements as children and its texts as text.
-/

namespace ComponentModel.Markup

/-! ## Content inside an element -/

theorem Element.mk_eq (element : Element) :
    Element.mk element.name element.attributes element.children element.text = element := by
  cases element
  rfl

theorem Element.addText_empty (element : Element) : element.addText "" = element := by
  unfold Element.addText
  split
  next last isLast =>
    have children : element.children.dropLast ++ [last] = element.children :=
      List.dropLast_append_getLast? last isLast
    split <;> simp [Element.mk_eq, children]
  next => simp [Element.mk_eq]

/-- A text directly behind a child goes to the child or to its parent. -/
theorem Element.addText_addChild (parent child : Element) (segment : String) :
    (parent.addChild child).addText segment =
      { parent with
        children := parent.children ++ [child.followedBy segment]
        text := parent.text ++ if child.name = "sep" then "" else segment } := by
  by_cases separates : child.name = "sep" <;>
    simp [Element.addText, Element.addChild, Element.followedBy, Element.isSeparator, separates]

/-- An element that is still open, behind some content of it. -/
def Element.filledWith (element : Element) (content : Content) : Element :=
  let led := element.addText (Text.trim content.lead)
  { led with
    children := led.children ++ content.elements
    text := led.text ++ content.laterText }

theorem Element.filledWith_ends (element : Element) (gap : Gap) :
    element.filledWith (.ends gap) = element.addText (Text.trim gap.text) := by
  simp [Element.filledWith, Content.lead, Content.elements, Content.laterText, Element.mk_eq]

theorem Element.addChild_filledWith (parent child : Element) (content : Content) :
    (parent.addChild child).filledWith content =
      { parent with
        children := parent.children ++
          child.followedBy (Text.trim content.lead) :: content.elements
        text := parent.text ++
          ((if child.name = "sep" then "" else Text.trim content.lead) ++ content.laterText) } := by
  simp [Element.filledWith, Element.addText_addChild, String.append_assoc]

/-- A new element is filled with all of its content. -/
theorem Tag.filledWith_eq (tag : Tag) (content : Content) :
    (Element.mk tag.name tag.attributes [] "").filledWith content =
      ⟨tag.name, tag.attributes, content.elements, content.ownText⟩ := by
  simp [Element.filledWith, Element.addText, Content.ownText]

/-! ## Names -/

theorem IsPlainName.noColon {name : String} (plain : IsPlainName name) :
    ∀ character ∈ name.toList, character ≠ ':' :=
  fun _ member => plain.ne_mark member rfl

theorem IsPlainName.localName_eq {name : String} (plain : IsPlainName name) :
    localName name = name := by
  have all : ∀ character ∈ name.toList, (character != ':') = true := by
    simpa using plain.noColon
  rw [localName, List.dropWhile_eq_nil_iff.mpr all]

theorem IsPlainName.declaresNamespace_eq {name : String} (plain : IsPlainName name)
    (other : name ≠ "xmlns") : declaresNamespace name = false := by
  have noPrefix : "xmlns:".toList.isPrefixOf name.toList = false := by
    rw [Bool.eq_false_iff, ne_eq, List.isPrefixOf_iff_prefix]
    intro starts
    exact plain.noColon ':' (starts.subset (by decide +kernel)) rfl
  rw [declaresNamespace, plain.localName_eq, noPrefix, Bool.or_false, beq_eq_false_iff_ne]
  exact other

/-- Plain names are taken over as they are. -/
theorem Tag.ofTag_eq (tag : Tag) :
    Element.ofTag tag.name tag.attributes = ⟨tag.name, tag.attributes, [], ""⟩ := by
  have kept : tag.attributes.filter (fun entry => !declaresNamespace entry.1) =
      tag.attributes := by
    rw [List.filter_eq_self]
    intro entry member
    obtain ⟨plain, other⟩ := tag.attributesNamed entry member
    simp [plain.declaresNamespace_eq other]
  have same : tag.attributes.map (fun entry => (localName entry.1, entry.2)) =
      tag.attributes := by
    refine (List.map_congr_left fun entry member => ?_).trans (List.map_id _)
    rw [(tag.attributesNamed entry member).1.localName_eq]
    rfl
  rw [Element.ofTag, kept, same, tag.named.localName_eq]

/-! ## Runs over content -/

namespace Nesting

variable {name : String} {parent : Element} {pending : List (String × Element)}
variable {roots : List Element}

/-- A gap inside an element. -/
theorem run_gap (gap : Gap) (behind : List Piece) :
    Nesting.run ⟨(name, parent) :: pending, roots⟩ (gap.pieces ++ behind) =
      Nesting.run ⟨(name, parent.addText (Text.trim gap.text)) :: pending, roots⟩ behind := by
  by_cases nothing : gap.text = ""
  · simp [Gap.pieces, nothing, trim_empty, Element.addText_empty]
  · simp [Gap.pieces, nothing, run, step]

/-- A gap outside all elements. -/
theorem run_gap_outside (gap : Gap) (behind : List Piece) :
    Nesting.run ⟨[], roots⟩ (gap.pieces ++ behind) = Nesting.run ⟨[], roots⟩ behind := by
  by_cases nothing : gap.text = ""
  · simp [Gap.pieces, nothing]
  · simp [Gap.pieces, nothing, run, step]

/-- Content inside an element. The induction is over the content, for any elements open around it
and any pieces behind it. -/
theorem run_content (content : Content) (behind : List Piece) :
    Nesting.run ⟨(name, parent) :: pending, roots⟩ (content.pieces ++ behind) =
      Nesting.run ⟨(name, parent.filledWith content) :: pending, roots⟩ behind := by
  induction content generalizing name parent pending behind with
  | ends gap => rw [Content.pieces, run_gap, Element.filledWith_ends]
  | empty gap tag rest ih =>
      rw [Content.pieces, List.append_assoc, run_gap, List.cons_append, run]
      simp only [step, place, tag.ofTag_eq]
      rw [ih, Element.addChild_filledWith]
      rfl
  | nested gap tag inner rest ihInner ih =>
      rw [Content.pieces, List.append_assoc, List.append_assoc, run_gap, List.cons_append, run]
      simp only [step, tag.ofTag_eq]
      rw [ihInner, tag.filledWith_eq, List.cons_append, run]
      simp only [step, place, beq_self_eq_true, if_true]
      rw [ih, Element.addChild_filledWith]
      rfl

/-- Content outside all elements, with no separators there. -/
theorem run_content_outside (content : Content)
    (noSeparator : ∀ root ∈ content.elements, root.name ≠ "sep") :
    Nesting.run ⟨[], roots⟩ content.pieces = some ⟨[], roots ++ content.elements⟩ := by
  induction content generalizing roots with
  | ends gap =>
      have outside : Nesting.run ⟨[], roots⟩ (gap.pieces ++ []) = some ⟨[], roots⟩ :=
        run_gap_outside gap []
      simpa [Content.pieces, Content.elements] using outside
  | empty gap tag rest ih =>
      rw [Content.elements, List.forall_mem_cons, Element.followedBy_name] at noSeparator
      rw [Content.pieces, run_gap_outside, run]
      simp only [step, place, tag.ofTag_eq]
      rw [ih noSeparator.2, Content.elements, Element.followedBy_of_ne noSeparator.1,
        List.append_assoc, List.singleton_append]
  | nested gap tag inner rest _ ih =>
      rw [Content.elements, List.forall_mem_cons, Element.followedBy_name] at noSeparator
      rw [Content.pieces, List.append_assoc, run_gap_outside, List.cons_append, run]
      simp only [step, tag.ofTag_eq]
      rw [run_content, tag.filledWith_eq, run]
      simp only [step, place, beq_self_eq_true, if_true]
      rw [ih noSeparator.2, Content.elements, Element.followedBy_of_ne noSeparator.1,
        List.append_assoc, List.singleton_append]

end Nesting

theorem Element.ofPieces_of_isMath {pieces : List Piece} {roots : List Element}
    (nested : Nesting.run ⟨[], []⟩ pieces = some ⟨[], roots⟩)
    (isMath : ∀ root ∈ roots, root.name = "math") : Element.ofPieces pieces = .ok roots := by
  have noOther : roots.find? (fun root => root.name != "math") = none := by
    rw [List.find?_eq_none]
    intro root member
    simp [isMath root member]
  rw [Element.ofPieces, nested]
  simp only [noOther]

/-- Written `math` elements are read as they were. -/
theorem readMath_document {content : Content}
    (isMath : ∀ root ∈ content.elements, root.name = "math") :
    readMath content.document = .ok content.elements := by
  have nested : Nesting.run ⟨[], []⟩ content.pieces = some ⟨[], content.elements⟩ :=
    Nesting.run_content_outside content fun root member => by simp [isMath root member]
  rw [readMath, content.pieces?_document]
  exact Element.ofPieces_of_isMath nested isMath

theorem isMath_of_readMath {text : String} {roots : List Element}
    (read : readMath text = .ok roots) : ∀ root ∈ roots, root.name = "math" := by
  unfold readMath at read
  split at read
  next => cases read
  next pieces _ =>
    unfold Element.ofPieces at read
    split at read
    next => cases read
    next => cases read
    next found _ =>
      split at read
      next => cases read
      next other =>
        obtain rfl := Except.ok.inj read
        simpa using other

end ComponentModel.Markup
