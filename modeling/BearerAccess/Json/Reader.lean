import BearerAccess.Json.Lexeme
set_option autoImplicit false

namespace BearerAccess.Json

/-- An array or object that is still open; what it holds so far is in reverse order. -/
inductive Frame where
  | array (items : List Doc)
  | object (members : List (List Piece × Doc))
  | member (members : List (List Piece × Doc)) (name : List Piece)
  deriving Repr

inductive Expect where
  | value
  | itemOrClose
  | nameOrClose
  | name
  | colon
  | commaOrClose
  deriving DecidableEq, Repr

inductive Assembly where
  | partly (frames : List Frame) (expect : Expect)
  | whole (d : Doc)
  deriving Repr

namespace Assembly

def empty : Assembly := .partly [] .value

def put (d : Doc) : List Frame → Option Assembly
  | [] => some (.whole d)
  | .array xs :: fs => some (.partly (.array (d :: xs) :: fs) .commaOrClose)
  | .member ms name :: fs => some (.partly (.object ((name, d) :: ms) :: fs) .commaOrClose)
  | .object _ :: _ => none

def beginValue (frames : List Frame) : Lexeme → Option Assembly
  | .null => put .null frames
  | .bool b => put (.bool b) frames
  | .number n => put (.number n) frames
  | .string s => put (.string s) frames
  | .openArray => some (.partly (.array [] :: frames) .itemOrClose)
  | .openObject => some (.partly (.object [] :: frames) .nameOrClose)
  | _ => none

def push : Assembly → Lexeme → Option Assembly
  | .whole _, _ => none
  | .partly frames .value, x => beginValue frames x
  | .partly (.array xs :: fs) .itemOrClose, .closeArray => put (.array xs.reverse) fs
  | .partly frames .itemOrClose, x => beginValue frames x
  | .partly (.object ms :: fs) .nameOrClose, .closeObject => put (.object ms.reverse) fs
  | .partly (.object ms :: fs) .nameOrClose, .string s => some (.partly (.member ms s :: fs) .colon)
  | .partly (.object ms :: fs) .name, .string s => some (.partly (.member ms s :: fs) .colon)
  | .partly frames .colon, .colon => some (.partly frames .value)
  | .partly (.array xs :: fs) .commaOrClose, .comma => some (.partly (.array xs :: fs) .value)
  | .partly (.array xs :: fs) .commaOrClose, .closeArray => put (.array xs.reverse) fs
  | .partly (.object ms :: fs) .commaOrClose, .comma => some (.partly (.object ms :: fs) .name)
  | .partly (.object ms :: fs) .commaOrClose, .closeObject => put (.object ms.reverse) fs
  | _, _ => none

def doc? : Assembly → Option Doc
  | .whole d => some d
  | .partly _ _ => none

end Assembly

structure Reader where
  scan : Scan
  assembly : Assembly
  deriving Repr

namespace Reader

def initial : Reader := ⟨.blank, .empty⟩

def step (r : Reader) (s : Symbol) : Option Reader := do
  let (lexemes, scan) ← r.scan.step s
  let assembly ← lexemes.foldlM Assembly.push r.assembly
  pure ⟨scan, assembly⟩

def finish (r : Reader) : Option Doc := do
  let lexemes ← r.scan.finish
  let assembly ← lexemes.foldlM Assembly.push r.assembly
  assembly.doc?

end Reader

def Doc.ofSymbols? (symbols : List Symbol) : Option Doc :=
  (symbols.foldlM Reader.step Reader.initial).bind Reader.finish

def Doc.ofText? (text : String) : Option Doc := Doc.ofSymbols? (Symbol.ofText text.toList)

/-- The document that the bytes spell; a byte order mark is no part of one. -/
def Doc.ofBytes? (bytes : Bytes) : Option Doc := Doc.ofSymbols? (Symbol.ofBytes bytes)

end BearerAccess.Json
