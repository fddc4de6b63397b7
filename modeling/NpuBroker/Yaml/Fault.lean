import NpuBroker.Yaml.Cursor

/-!
# Faults of documents

Why a text is no YAML document: what is wrong and where, and what was being read. The wording is
all here.
-/
namespace NpuBroker.Yaml

inductive Problem where
  /-- A character that no document may hold, behind so many bytes. -/
  | forbidden (offset : Nat)
  | noToken
  | noColon
  | itemOutOfPlace
  | keyOutOfPlace
  | valueOutOfPlace
  | noDirectiveName
  | badDirectiveName
  | unknownDirective
  | noVersion
  | longVersion
  | noVersionPoint
  | noLineEnd
  | noGap
  | noGapOrBreak
  | noHandle
  | noTagText
  | noTagEnd
  | noEscapedByte
  | badFirstByte
  | badLaterByte
  | noName
  | documentMark
  | unclosed
  | unknownEscape
  | noHexDigit
  | noCharacter
  | noDepth
  | tabInIndentation
  | tabBeforeText
  | colon
  | noDocument
  | secondVersion
  | otherVersion
  | secondHandle
  | unknownHandle
  | noContent
  | noItem
  | noKey
  | noSequenceEnd
  | noMappingEnd
  | unknownAnchor
deriving DecidableEq

def Problem.message : Problem → String
  | .forbidden 0 => "control characters are not allowed"
  | .forbidden n => "control characters are not allowed at position " ++ Nat.repr n
  | .noToken => "found character that cannot start any token"
  | .noColon => "could not find expected ':'"
  | .itemOutOfPlace => "block sequence entries are not allowed in this context"
  | .keyOutOfPlace => "mapping keys are not allowed in this context"
  | .valueOutOfPlace => "mapping values are not allowed in this context"
  | .noDirectiveName => "could not find expected directive name"
  | .badDirectiveName => "found unexpected non-alphabetical character"
  | .unknownDirective => "found unknown directive name"
  | .noVersion => "did not find expected version number"
  | .longVersion => "found extremely long version number"
  | .noVersionPoint => "did not find expected digit or '.' character"
  | .noLineEnd => "did not find expected comment or line break"
  | .noGap => "did not find expected whitespace"
  | .noGapOrBreak => "did not find expected whitespace or line break"
  | .noHandle => "did not find expected '!'"
  | .noTagText => "did not find expected tag URI"
  | .noTagEnd => "did not find the expected '>'"
  | .noEscapedByte => "did not find URI escaped octet"
  | .badFirstByte => "found an incorrect leading UTF-8 octet"
  | .badLaterByte => "found an incorrect trailing UTF-8 octet"
  | .noName => "did not find expected alphabetic or numeric character"
  | .documentMark => "found unexpected document indicator"
  | .unclosed => "found unexpected end of stream"
  | .unknownEscape => "found unknown escape character"
  | .noHexDigit => "did not find expected hexdecimal number"
  | .noCharacter => "found invalid Unicode character escape code"
  | .noDepth => "found an indentation indicator equal to 0"
  | .tabInIndentation => "found a tab character where an indentation space is expected"
  | .tabBeforeText => "found a tab character that violates indentation"
  | .colon => "found unexpected ':'"
  | .noDocument => "did not find expected <document start>"
  | .secondVersion => "found duplicate %YAML directive"
  | .otherVersion => "found incompatible YAML document"
  | .secondHandle => "found duplicate %TAG directive"
  | .unknownHandle => "found undefined tag handle"
  | .noContent => "did not find expected node content"
  | .noItem => "did not find expected '-' indicator"
  | .noKey => "did not find expected key"
  | .noSequenceEnd => "did not find expected ',' or ']'"
  | .noMappingEnd => "did not find expected ',' or '\x7d'"
  | .unknownAnchor => "unknown anchor"

/-- What was being read. -/
inductive Task where
  | token
  | simpleKey
  | directive
  | versionDirective
  | tagDirective
  | tagDirectiveHandle
  | tagDirectiveName
  | tagDirectiveText
  | tag
  | tagText
  | anchor
  | alias
  | block
  | quoted
  | escape
  | plain
  | node
  | blockNode
  | flowNode
  | blockSequence
  | blockMapping
  | flowSequence
  | flowMapping
deriving DecidableEq

def Task.message : Task → String
  | .token => "while scanning for the next token"
  | .simpleKey => "while scanning a simple key"
  | .directive => "while scanning a directive"
  | .versionDirective => "while scanning a %YAML directive"
  | .tagDirective => "while scanning a %TAG directive"
  | .tagDirectiveHandle => "while scanning a tag directive"
  | .tagDirectiveName => "while parsing a tag directive"
  | .tagDirectiveText => "while parsing a %TAG directive"
  | .tag => "while scanning a tag"
  | .tagText => "while parsing a tag"
  | .anchor => "while scanning an anchor"
  | .alias => "while scanning an alias"
  | .block => "while scanning a block scalar"
  | .quoted => "while scanning a quoted scalar"
  | .escape => "while parsing a quoted scalar"
  | .plain => "while scanning a plain scalar"
  | .node => "while parsing a node"
  | .blockNode => "while parsing a block node"
  | .flowNode => "while parsing a flow node"
  | .blockSequence => "while parsing a block collection"
  | .blockMapping => "while parsing a block mapping"
  | .flowSequence => "while parsing a flow sequence"
  | .flowMapping => "while parsing a flow mapping"

structure Fault where
  problem : Problem
  mark : Mark
  /-- What was being read, and where that began. -/
  during : Option (Task × Mark)
deriving DecidableEq

namespace Fault

def message (f : Fault) : String :=
  f.problem.message ++ f.mark.suffix ++
    match f.during with
    | none => ""
    | some (task, begun) =>
      ", " ++ task.message ++ if begun = f.mark then "" else begun.suffix

end Fault
end NpuBroker.Yaml
