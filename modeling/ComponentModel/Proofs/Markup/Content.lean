import ComponentModel.Markup.Element

/-!
# Content of markup

Content is text and elements in turn: in front of every element, and behind the last one, there is
a gap with some text or none. It is written with one blank in front of each attribute and the values
in double quotes; an element with nothing in it may be written with one tag or with two.

The elements of content say what reading has to give back. The text of an element is put together
from its own gaps, but a gap directly behind a `sep` element belongs to that element.
-/

namespace ComponentModel.Markup

/-- Whether a character has a meaning of its own in a tag. Colons are among these, since they end a
namespace. -/
def isMark (character : Char) : Bool :=
  isSeparator character ||
    ['<', '>', '/', '=', '"', '\'', '!', '?', ':', '&'].contains character

/-- A name without a namespace. All names of XML that have no colon are plain. -/
def IsPlainName (name : String) : Prop :=
  name ≠ "" ∧ ∀ character ∈ name.toList, isMark character = false

/-- A text without tags and references. -/
def IsPlainText (text : String) : Prop :=
  ∀ character ∈ text.toList, endsSegment character = false

-- Characters are finitely many, so the instances name the list that is to be gone through.
instance (name : String) : Decidable (IsPlainName name) :=
  @instDecidableAnd _ _ inferInstance (List.decidableBAll _ _)

instance (text : String) : Decidable (IsPlainText text) :=
  List.decidableBAll _ _

/-- A text between two tags. It may be empty or blank. -/
structure Gap where
  text : String
  plain : IsPlainText text

/-- The name and the attributes of an element. -/
structure Tag where
  name : String
  attributes : List (String × String)
  named : IsPlainName name
  attributesNamed : ∀ entry ∈ attributes, IsPlainName entry.1 ∧ entry.1 ≠ "xmlns"
  unquoted : ∀ entry ∈ attributes, '"' ∉ entry.2.toList
  distinct : (attributes.map Prod.fst).Nodup

/-- Texts and elements in turn. -/
inductive Content where
  /-- The text behind the last element. -/
  | ends (gap : Gap)
  /-- An element written with one tag, the text in front of it and the content behind it. -/
  | empty (gap : Gap) (tag : Tag) (rest : Content)
  /-- An element written with two tags and content between them. -/
  | nested (gap : Gap) (tag : Tag) (inner rest : Content)

/-- An attribute, with one blank in front. -/
def writeAttribute (entry : String × String) : List Char :=
  ' ' :: entry.1.toList ++ '=' :: '"' :: entry.2.toList ++ ['"']

/-- What stands between the brackets of a start tag. -/
def Tag.write (tag : Tag) : List Char :=
  tag.name.toList ++ tag.attributes.flatMap writeAttribute

/-- An element with a text directly behind it. Only a separator takes the text in. -/
def Element.followedBy (element : Element) (segment : String) : Element :=
  if element.isSeparator then { element with text := element.text ++ segment } else element

@[simp] theorem Element.followedBy_name (element : Element) (segment : String) :
    (element.followedBy segment).name = element.name := by
  unfold Element.followedBy
  split <;> rfl

theorem Element.followedBy_of_ne {element : Element} (other : element.name ≠ "sep")
    (segment : String) : element.followedBy segment = element := by
  simp [Element.followedBy, Element.isSeparator, other]

namespace Content

/-- The text in front of the first element. -/
def lead : Content → String
  | .ends gap => gap.text
  | .empty gap _ _ => gap.text
  | .nested gap _ _ _ => gap.text

/-- The trimmed texts behind elements, without those directly behind a separator. -/
def laterText : Content → String
  | .ends _ => ""
  | .empty _ tag rest | .nested _ tag _ rest =>
      (if tag.name = "sep" then "" else Text.trim rest.lead) ++ rest.laterText

/-- The text of an element with this content. -/
def ownText (content : Content) : String :=
  Text.trim content.lead ++ content.laterText

/-- The elements of this content, each with the elements and the text of its own content. -/
def elements : Content → List Element
  | .ends _ => []
  | .empty _ tag rest =>
      Element.followedBy ⟨tag.name, tag.attributes, [], ""⟩ (Text.trim rest.lead) :: rest.elements
  | .nested _ tag inner rest =>
      Element.followedBy ⟨tag.name, tag.attributes, inner.elements, inner.ownText⟩
        (Text.trim rest.lead) :: rest.elements

/-- Content as markup. -/
def write : Content → List Char
  | .ends gap => gap.text.toList
  | .empty gap tag rest => gap.text.toList ++ '<' :: tag.write ++ '/' :: '>' :: rest.write
  | .nested gap tag inner rest =>
      gap.text.toList ++ '<' :: tag.write ++ '>' :: inner.write ++
        '<' :: '/' :: tag.name.toList ++ '>' :: rest.write

/-- Content as the text of a document. -/
def document (content : Content) : String :=
  String.ofList content.write

/-- The content of a number in parts: texts with nothing but empty separators between them. -/
inductive IsInParts : Content → List String → Prop where
  | last (gap : Gap) : IsInParts (.ends gap) [gap.text]
  | empty (gap : Gap) {tag : Tag} {rest : Content} {parts : List String}
      (separates : tag.name = "sep") (behind : IsInParts rest parts) :
      IsInParts (.empty gap tag rest) (gap.text :: parts)
  | nested (gap : Gap) {tag : Tag} {hollow : Gap} {rest : Content} {parts : List String}
      (separates : tag.name = "sep") (nothing : hollow.text = "")
      (behind : IsInParts rest parts) :
      IsInParts (.nested gap tag (.ends hollow) rest) (gap.text :: parts)

/-- In front of the first separator stands the first part. -/
theorem IsInParts.lead {content : Content} {parts : List String}
    (inParts : content.IsInParts parts) : parts = content.lead :: parts.tail := by
  cases inParts <;> rfl

/-- Behind the first part, the texts belong to the separators. -/
theorem IsInParts.laterText {content : Content} {parts : List String}
    (inParts : content.IsInParts parts) : content.laterText = "" := by
  induction inParts with
  | last => rfl
  | empty _ separates _ ih => simp [Content.laterText, separates, ih]
  | nested _ separates _ _ ih => simp [Content.laterText, separates, ih]

end Content

theorem trim_empty : Text.trim "" = "" := by
  simp [Text.trim, Text.trimChars]

/-- The separators hold the parts behind the first one, in order. -/
theorem Content.IsInParts.separators {content : Content} {parts : List String}
    (inParts : content.IsInParts parts) :
    (content.elements.filter Element.isSeparator).map Element.text =
      parts.tail.map Text.trim := by
  induction inParts with
  | last => rfl
  | empty _ separates behind ih =>
      rw [List.tail_cons, behind.lead]
      simp [Content.elements, Element.followedBy, Element.isSeparator, separates, ih]
  | nested _ separates nothing behind ih =>
      rw [List.tail_cons, behind.lead]
      simp [Content.elements, Element.followedBy, Element.isSeparator, separates, nothing, ih,
        Content.ownText, Content.lead, Content.laterText, trim_empty]

/-- A number in parts is read as its trimmed parts. -/
theorem Content.IsInParts.textParts {content : Content} {parts : List String}
    (inParts : content.IsInParts parts) (name : String) (attributes : List (String × String)) :
    (Element.mk name attributes content.elements content.ownText).textParts =
      parts.map Text.trim := by
  rw [Element.textParts, inParts.separators, Content.ownText, inParts.laterText, inParts.lead]
  simp

end ComponentModel.Markup
