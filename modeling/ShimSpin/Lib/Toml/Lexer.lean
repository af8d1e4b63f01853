import ShimSpin.Lib.Toml.Scalar
import ShimSpin.Lib.Transducer

namespace Toml
set_option autoImplicit true

/-- A part of a key, without its quotes and escapes. -/
abbrev Key := List Char

/-- What a document is made of, in the order of its text. Nothing depends on the content of a
string that is a value. -/
inductive Event where
  | table (keys : List Key)
  | arrayTable (keys : List Key)
  | key (keys : List Key)
  | string
  | scalar (token : List Char)
  | openArray
  | closeArray
  | openInline
  | closeInline
  deriving DecidableEq

/-- What a value stands in, apart from the key at the start of a line. -/
inductive Container where
  | array
  | inline
  deriving DecidableEq

inductive KeyUse where
  | table
  | arrayTable
  | value (stack : List Container)
  deriving DecidableEq

/-- Where a reader is between two characters. A `stack` lists the open containers, the innermost
first. -/
inductive Mode where
  | line
  | bracket
  | keyStart (use : KeyUse) (done : List Key)
  | keyBare (use : KeyUse) (done : List Key) (part : Key)
  | keyBasic (use : KeyUse) (done : List Key) (part : Key)
  | keyEscape (use : KeyUse) (done : List Key) (part : Key)
  | keyHex (use : KeyUse) (done : List Key) (part : Key) (left code : Nat)
  | keyLiteral (use : KeyUse) (done : List Key) (part : Key)
  | keyEnd (use : KeyUse) (done : List Key)
  | closeBracket (keys : List Key)
  | value (stack : List Container)
  | arrayItem (stack : List Container)
  | inlineStart (stack : List Container)
  | scalar (stack : List Container) (token : List Char)
  | dateBlank (stack : List Container) (token : List Char)
  | quote (literal : Bool) (stack : List Container)
  | quotes (literal : Bool) (stack : List Container)
  | string (literal : Bool) (stack : List Container)
  | multi (literal : Bool) (stack : List Container) (seen : Nat)
  | escape (multi : Bool) (stack : List Container)
  | hex (multi : Bool) (stack : List Container) (left code : Nat)
  | lineEscape (stack : List Container)
  | afterValue (stack : List Container)
  | comment (stack : List Container) (item : Bool)
  deriving DecidableEq

def isBlank (c : Char) : Bool := c = ' ' || c = '\t'

/-- All but the control characters. -/
def isText (c : Char) : Bool := c = '\t' || ' ' ≤ c && c ≠ '\x7f'

def isBare (c : Char) : Bool := c.isAlphanum || c = '-' || c = '_'

def quoteChar (literal : Bool) : Char := if literal then '\'' else '"'

def simpleEscape : Char → Option Char
  | 'b' => some '\x08'
  | 't' => some '\t'
  | 'n' => some '\n'
  | 'f' => some '\x0c'
  | 'r' => some '\r'
  | '"' => some '"'
  | '\\' => some '\\'
  | _ => none

/-- The number of digits of an escape for a code point. -/
def hexEscape : Char → Option Nat
  | 'u' => some 4
  | 'U' => some 8
  | _ => none

def isCodePoint (code : Nat) : Bool := code < 0xd800 || 0xdfff < code && code < 0x110000

def stepAfterValue (stack : List Container) (c : Char) : Option (Mode × List Event) :=
  match stack with
  | [] =>
    if isBlank c then some (.afterValue [], [])
    else if c = '\n' then some (.line, [])
    else if c = '#' then some (.comment [] false, [])
    else none
  | .array :: outer =>
    if isBlank c || c = '\n' then some (.afterValue (.array :: outer), [])
    else if c = '#' then some (.comment (.array :: outer) false, [])
    else if c = ',' then some (.arrayItem (.array :: outer), [])
    else if c = ']' then some (.afterValue outer, [.closeArray])
    else none
  | .inline :: outer =>
    if isBlank c then some (.afterValue (.inline :: outer), [])
    else if c = ',' then some (.keyStart (.value (.inline :: outer)) [], [])
    else if c = '}' then some (.afterValue outer, [.closeInline])
    else none

def stepValue (stack : List Container) (c : Char) : Option (Mode × List Event) :=
  if c = '"' then some (.quote false stack, [.string])
  else if c = '\'' then some (.quote true stack, [.string])
  else if c = '[' then some (.arrayItem (.array :: stack), [.openArray])
  else if c = '\x7b' then some (.inlineStart (.inline :: stack), [.openInline])
  else if isScalarChar c then some (.scalar stack [c], [])
  else none

def stepKeyStart (use : KeyUse) (done : List Key) (c : Char) : Option (Mode × List Event) :=
  if isBlank c then some (.keyStart use done, [])
  else if c = '"' then some (.keyBasic use done [], [])
  else if c = '\'' then some (.keyLiteral use done [], [])
  else if isBare c then some (.keyBare use done [c], [])
  else none

def stepKeyEnd (use : KeyUse) (done : List Key) (c : Char) : Option (Mode × List Event) :=
  if isBlank c then some (.keyEnd use done, [])
  else if c = '.' then some (.keyStart use done, [])
  else
    match use with
    | .value stack => if c = '=' then some (.value stack, [.key done]) else none
    | .table => if c = ']' then some (.afterValue [], [.table done]) else none
    | .arrayTable => if c = ']' then some (.closeBracket done, []) else none

def endScalar (stack : List Container) (token : List Char) (c : Char) :
    Option (Mode × List Event) :=
  if isScalar token then (stepAfterValue stack c).map fun r => (r.1, .scalar token :: r.2)
  else none

def stepEscape (multi : Bool) (stack : List Container) (c : Char) : Option (Mode × List Event) :=
  if (simpleEscape c).isSome then
    some (if multi then .multi false stack 0 else .string false stack, [])
  else
    match hexEscape c with
    | some left => some (.hex multi stack left 0, [])
    | none =>
      if multi && isBlank c then some (.lineEscape stack, [])
      else if multi && c = '\n' then some (.multi false stack 0, [])
      else none

def stepMulti (literal : Bool) (stack : List Container) (seen : Nat) (c : Char) :
    Option (Mode × List Event) :=
  if c = quoteChar literal then
    if seen < 5 then some (.multi literal stack (seen + 1), []) else none
  else if 3 ≤ seen then stepAfterValue stack c
  else if !literal && c = '\\' then some (.escape true stack, [])
  else if isText c || c = '\n' then some (.multi literal stack 0, [])
  else none

def stepMode (mode : Mode) (c : Char) : Option (Mode × List Event) :=
  match mode with
  | .line =>
    if isBlank c || c = '\n' then some (.line, [])
    else if c = '#' then some (.comment [] false, [])
    else if c = '[' then some (.bracket, [])
    else stepKeyStart (.value []) [] c
  | .bracket =>
    if c = '[' then some (.keyStart .arrayTable [], []) else stepKeyStart .table [] c
  | .keyStart use done => stepKeyStart use done c
  | .keyBare use done part =>
    if isBare c then some (.keyBare use done (part ++ [c]), [])
    else stepKeyEnd use (done ++ [part]) c
  | .keyBasic use done part =>
    if c = '"' then some (.keyEnd use (done ++ [part]), [])
    else if c = '\\' then some (.keyEscape use done part, [])
    else if isText c then some (.keyBasic use done (part ++ [c]), [])
    else none
  | .keyEscape use done part =>
    match simpleEscape c with
    | some d => some (.keyBasic use done (part ++ [d]), [])
    | none => (hexEscape c).map fun left => (.keyHex use done part left 0, [])
  | .keyHex use done part left code =>
    let code := code * 16 + digitValue c
    if !isHexDigit c then none
    else if 1 < left then some (.keyHex use done part (left - 1) code, [])
    else if isCodePoint code then some (.keyBasic use done (part ++ [Char.ofNat code]), [])
    else none
  | .keyLiteral use done part =>
    if c = '\'' then some (.keyEnd use (done ++ [part]), [])
    else if isText c then some (.keyLiteral use done (part ++ [c]), [])
    else none
  | .keyEnd use done => stepKeyEnd use done c
  | .closeBracket keys => if c = ']' then some (.afterValue [], [.arrayTable keys]) else none
  | .value stack => if isBlank c then some (.value stack, []) else stepValue stack c
  | .arrayItem stack =>
    if isBlank c || c = '\n' then some (.arrayItem stack, [])
    else if c = '#' then some (.comment stack true, [])
    else if c = ']' then some (.afterValue stack.tail, [.closeArray])
    else stepValue stack c
  | .inlineStart stack =>
    if c = '}' then some (.afterValue stack.tail, [.closeInline])
    else if isBlank c then some (.inlineStart stack, [])
    else stepKeyStart (.value stack) [] c
  | .scalar stack token =>
    if isScalarChar c then some (.scalar stack (token ++ [c]), [])
    else if c = ' ' && isDate token then some (.dateBlank stack token, [])
    else endScalar stack token c
  | .dateBlank stack token =>
    if c.isDigit then some (.scalar stack (token ++ [' ', c]), []) else endScalar stack token c
  | .quote literal stack =>
    if c = quoteChar literal then some (.quotes literal stack, [])
    else if !literal && c = '\\' then some (.escape false stack, [])
    else if isText c then some (.string literal stack, [])
    else none
  | .quotes literal stack =>
    if c = quoteChar literal then some (.multi literal stack 0, []) else stepAfterValue stack c
  | .string literal stack =>
    if c = quoteChar literal then some (.afterValue stack, [])
    else if !literal && c = '\\' then some (.escape false stack, [])
    else if isText c then some (.string literal stack, [])
    else none
  | .multi literal stack seen => stepMulti literal stack seen c
  | .escape multi stack => stepEscape multi stack c
  | .hex multi stack left code =>
    let code := code * 16 + digitValue c
    if !isHexDigit c then none
    else if 1 < left then some (.hex multi stack (left - 1) code, [])
    else if isCodePoint code then
      some (if multi then .multi false stack 0 else .string false stack, [])
    else none
  | .lineEscape stack =>
    if isBlank c then some (.lineEscape stack, [])
    else if c = '\n' then some (.multi false stack 0, [])
    else none
  | .afterValue stack => stepAfterValue stack c
  | .comment stack item =>
    if c = '\n' then
      some (if stack = [] then .line else if item then .arrayItem stack else .afterValue stack, [])
    else if isText c then some (.comment stack item, [])
    else none

/-- What is still to be written at the end of a text that may end here. -/
def finishMode : Mode → Option (List Event)
  | .line => some []
  | .comment [] _ => some []
  | .afterValue [] => some []
  | .scalar [] token => if isScalar token then some [.scalar token] else none
  | .dateBlank [] token => if isScalar token then some [.scalar token] else none
  | .quotes _ [] => some []
  | .multi _ [] seen => if 3 ≤ seen then some [] else none
  | _ => none

/-- A line may also end with `\r\n`. -/
structure Cursor where
  mode : Mode
  cr : Bool
  deriving DecidableEq

def Cursor.start : Cursor := ⟨.line, false⟩

def lexer : Transducer Cursor Char Event where
  step s c :=
    if s.cr then
      if c = '\n' then (stepMode s.mode c).map fun r => (⟨r.1, false⟩, r.2) else none
    else if c = '\r' then some (⟨s.mode, true⟩, [])
    else (stepMode s.mode c).map fun r => (⟨r.1, false⟩, r.2)
  finish s := if s.cr then none else finishMode s.mode

def events (text : List Char) : Option (List Event) := lexer.output .start text

end Toml
