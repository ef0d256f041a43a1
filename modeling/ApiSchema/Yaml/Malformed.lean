/-
Why a text is not one YAML document of plain data.

The causes are grouped by what is being read: characters, tokens, the structure
of the document, and at last the data that its nodes stand for.
-/
import ApiSchema.Text.Quoted

namespace ApiSchema.Yaml

/-- Why a text cannot be read. -/
inductive Malformed where
  /-- A control character that no document may hold. -/
  | unprintable (c : Char)
  /-- No token starts with this character. -/
  | noTokenStart (c : Char)
  /-- Something that has to be a key is not followed by a colon. -/
  | missingColon
  /-- A sequence entry stands where none may start. -/
  | misplacedEntry
  /-- A key mark stands where no key may start. -/
  | misplacedKey
  /-- A colon stands where no value may start. -/
  | misplacedValue
  /-- A directive line has the wrong form. -/
  | badDirective
  /-- An anchor or alias has no proper name. -/
  | badAnchor
  /-- A tag has the wrong form. -/
  | badTag
  /-- The head of a block scalar has the wrong form. -/
  | badBlockHead
  /-- An escape in a quoted scalar is unknown. -/
  | badEscape
  /-- A quoted scalar is not closed. -/
  | unclosedQuote
  /-- A document mark stands inside a quoted scalar. -/
  | markInQuote
  /-- Text follows a directive, or the end of a document. -/
  | expectedDocumentStart
  /-- A directive is given twice. -/
  | duplicateDirective
  /-- The document asks for another major version. -/
  | otherVersion
  /-- A tag uses an abbreviation that is not declared. -/
  | undeclaredHandle (handle : String)
  /-- A node is missing. -/
  | expectedNode
  /-- A block collection is continued by something else than an entry. -/
  | expectedBlockEnd
  /-- Entries of a flow collection are not separated by commas. -/
  | expectedComma
  /-- An alias names no anchor. -/
  | unknownAlias (name : String)
  /-- An anchor is given twice. -/
  | duplicateAnchor (name : String)
  /-- The text holds more than one document. -/
  | severalDocuments
  /-- The tokens end early, or nest deeper than their number allows. -/
  | endOfTokens
  /-- A tag names no kind of plain data. -/
  | unknownTag (tag : String)
  /-- A node is not of the kind that its tag asks for. -/
  | wrongKind
  /-- A collection is used as a key. -/
  | collectionKey
  /-- Something else than mappings is merged into a mapping. -/
  | badMerge
  /-- Binary data is not in base 64. -/
  | badBinary
deriving DecidableEq, Repr

/-- What is wrong with the text. -/
def Malformed.message : Malformed → String
  | unprintable c => "special characters are not allowed: " ++ Text.quoted c.toString
  | noTokenStart c => s!"found character {Text.quoted c.toString} that cannot start any token"
  | missingColon => "could not find expected ':'"
  | misplacedEntry => "sequence entries are not allowed here"
  | misplacedKey => "mapping keys are not allowed here"
  | misplacedValue => "mapping values are not allowed here"
  | badDirective => "malformed directive"
  | badAnchor => "malformed anchor or alias"
  | badTag => "malformed tag"
  | badBlockHead => "malformed head of a block scalar"
  | badEscape => "unknown or incomplete escape"
  | unclosedQuote => "found unexpected end of stream in a quoted scalar"
  | markInQuote => "found unexpected document separator in a quoted scalar"
  | expectedDocumentStart => "expected '<document start>'"
  | duplicateDirective => "found duplicate directive"
  | otherVersion => "found incompatible document (version 1.* is required)"
  | undeclaredHandle handle => s!"found undefined tag handle {Text.quoted handle}"
  | expectedNode => "expected the node content"
  | expectedBlockEnd => "expected <block end>"
  | expectedComma => "expected ',' or the end of a flow collection"
  | unknownAlias name => s!"found undefined alias {Text.quoted name}"
  | duplicateAnchor name => s!"found duplicate anchor {Text.quoted name}"
  | severalDocuments => "expected a single document in the stream"
  | endOfTokens => "unexpected end of the document"
  | unknownTag tag => s!"could not determine a constructor for the tag {Text.quoted tag}"
  | wrongKind => "a node does not fit its tag"
  | collectionKey => "found unhashable key"
  | badMerge => "expected a mapping or list of mappings for merging"
  | badBinary => "failed to decode base64 data"

end ApiSchema.Yaml
