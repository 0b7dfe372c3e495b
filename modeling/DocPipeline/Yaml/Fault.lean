import DocPipeline.Yaml.Mark

/-! What makes a text no document: the problem, the place where it shows, and the place where the
thing began that it spoils.
-/

namespace DocPipeline.Yaml

/-- A construct that a fault can spoil. -/
inductive Construct where
  | simpleKey | directive | version | tagDirective | anchor | aliasName | tag | escapes
  | blockScalar | quotedScalar | plainScalar
  | blockCollection | blockMapping | flowSequence | flowMapping | blockNode | flowNode
deriving DecidableEq, Repr

/-- The construct as a report names it. -/
def Construct.text : Construct → String
  | simpleKey => "while scanning a simple key"
  | directive => "while scanning a directive"
  | version => "while scanning a %YAML directive"
  | tagDirective => "while parsing a %TAG directive"
  | anchor => "while scanning an anchor"
  | aliasName => "while scanning an alias"
  | tag => "while parsing a tag"
  | escapes => "while parsing a tag"
  | blockScalar => "while scanning a block scalar"
  | quotedScalar => "while scanning a quoted scalar"
  | plainScalar => "while scanning a plain scalar"
  | blockCollection => "while parsing a block collection"
  | blockMapping => "while parsing a block mapping"
  | flowSequence => "while parsing a flow sequence"
  | flowMapping => "while parsing a flow mapping"
  | blockNode => "while parsing a block node"
  | flowNode => "while parsing a flow node"

/-- A problem with the text of a document. -/
inductive Problem where
  | controlCharacter | noTokenStart | entryNotAllowed | keyNotAllowed | valueNotAllowed
  | colonMissing | directiveNameMissing | directiveNameBroken | directiveUnknown
  | versionDigitsMissing | versionTooLong | versionPointMissing
  | commentOrBreakExpected | spaceExpected | spaceOrBreakExpected | nameExpected
  | tagMarkExpected | tagCloseExpected | tagUriExpected
  | octetExpected | octetLeadBroken | octetTailBroken
  | zeroIndentation | tabInIndentation | separatorInside | streamEndInside
  | escapeUnknown | digitsExpected | escapeNoCharacter
  | colonUnexpected | tabAbusesIndentation
  | documentStartExpected | versionRepeated | versionRefused | tagRepeated | tagUndefined
  | contentExpected | dashExpected | keyExpected | commaOrBracketExpected
  | commaOrBraceExpected | anchorUnknown | severalDocuments
deriving DecidableEq, Repr

/-- The problem as a report states it. -/
def Problem.text : Problem → String
  | controlCharacter => "control characters are not allowed"
  | noTokenStart => "found character that cannot start any token"
  | entryNotAllowed => "block sequence entries are not allowed in this context"
  | keyNotAllowed => "mapping keys are not allowed in this context"
  | valueNotAllowed => "mapping values are not allowed in this context"
  | colonMissing => "could not find expected ':'"
  | directiveNameMissing => "could not find expected directive name"
  | directiveNameBroken => "found unexpected non-alphabetical character"
  | directiveUnknown => "found unknown directive name"
  | versionDigitsMissing => "did not find expected version number"
  | versionTooLong => "found extremely long version number"
  | versionPointMissing => "did not find expected digit or '.' character"
  | commentOrBreakExpected => "did not find expected comment or line break"
  | spaceExpected => "did not find expected whitespace"
  | spaceOrBreakExpected => "did not find expected whitespace or line break"
  | nameExpected => "did not find expected alphabetic or numeric character"
  | tagMarkExpected => "did not find expected '!'"
  | tagCloseExpected => "did not find the expected '>'"
  | tagUriExpected => "did not find expected tag URI"
  | octetExpected => "did not find URI escaped octet"
  | octetLeadBroken => "found an incorrect leading UTF-8 octet"
  | octetTailBroken => "found an incorrect trailing UTF-8 octet"
  | zeroIndentation => "found an indentation indicator equal to 0"
  | tabInIndentation => "found a tab character where an indentation space is expected"
  | separatorInside => "found unexpected document indicator"
  | streamEndInside => "found unexpected end of stream"
  | escapeUnknown => "found unknown escape character"
  | digitsExpected => "did not find expected hexdecimal number"
  | escapeNoCharacter => "found invalid Unicode character escape code"
  | colonUnexpected => "found unexpected ':'"
  | tabAbusesIndentation => "found a tab character that violates indentation"
  | documentStartExpected => "did not find expected <document start>"
  | versionRepeated => "found duplicate %YAML directive"
  | versionRefused => "found incompatible YAML document"
  | tagRepeated => "found duplicate %TAG directive"
  | tagUndefined => "found undefined tag handle"
  | contentExpected => "did not find expected node content"
  | dashExpected => "did not find expected '-' indicator"
  | keyExpected => "did not find expected key"
  | commaOrBracketExpected => "did not find expected ',' or ']'"
  | commaOrBraceExpected => "did not find expected ',' or '\x7d'"
  | anchorUnknown => "unknown anchor"
  | severalDocuments =>
    "deserializing from YAML containing more than one document is not supported"

/-- A problem at a place, with the construct it spoils and where that began. -/
structure Fault where
  problem : Problem
  place : Mark
  within : Option (Construct × Mark)
deriving DecidableEq, Repr

/-- The text in which a fault is reported. -/
def Fault.message (fault : Fault) : String :=
  let context :=
    match fault.within with
    | none => ""
    | some (construct, start) =>
      ", " ++ construct.text ++ (if start.same fault.place then "" else start.suffix)
  fault.problem.text ++ fault.place.suffix ++ context

end DocPipeline.Yaml
