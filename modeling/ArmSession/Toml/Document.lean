import ArmSession.Toml.Scalar
import ArmSession.Toml.Text

/-!
# Documents

A document is a list of statements, one to a line: a header, or a key with its value. Values
may be nested in arrays and inline tables, up to a limit. Both go on over several lines and
may end in a comma.

Every parser takes what it reads from the front and hands back the rest. The first number of
values, items, pairs and statements bounds the calls, and grows with the text, so it is never
what stops them.
-/

namespace ArmSession.Toml

/-- How deep arrays and inline tables may be nested, and how many names a key may join. -/
def nestingLimit : Nat := 80

def isBareKeyChar (c : Char) : Bool := c.isAlphanum || c = '-' || c = '_'

def simpleKey? (cs : List Char) : Option (String × List Char) :=
  match cs with
  | '"' :: cs => (basicText cs).map fun (text, rest) => (String.ofList text, rest)
  | '\'' :: cs => (literalText cs).map fun (text, rest) => (String.ofList text, rest)
  | cs =>
    let name := cs.takeWhile isBareKeyChar
    if name.isEmpty then none else some (String.ofList name, cs.dropWhile isBareKeyChar)

/-- At most so many names joined by dots. The blanks after the last one are skipped. -/
def names? : Nat → List Char → Option (DottedKey × List Char)
  | 0, _ => none
  | n + 1, cs => do
    let (name, rest) ← simpleKey? cs
    match skipBlanks rest with
    | '.' :: rest =>
      let (key, rest) ← names? n (skipBlanks rest)
      some (⟨name :: key.path, key.last⟩, rest)
    | rest => some (⟨[], name⟩, rest)

def key? (cs : List Char) : Option (DottedKey × List Char) := names? nestingLimit cs

/-- A key and the sign that sets it apart from its value, on one line with both. -/
def keyOfLine? (cs : List Char) : Option (DottedKey × List Char) := do
  let (key, '=' :: rest) ← key? cs | none
  some (key, skipBlanks rest)

/-- A key and the sign that sets it apart from its value, each on any line. -/
def keyOfPair? (cs : List Char) : Option (DottedKey × List Char) := do
  let (key, rest) ← key? cs
  let '=' :: rest ← skipSpace false rest | none
  let rest ← skipSpace false rest
  some (key, rest)

def textValue (parse : TextParse) : Option (Value × List Char) :=
  parse.map fun (text, rest) => (.text (String.ofList text), rest)

mutual

/-- A value, in which `depth` more arrays or inline tables may be nested. -/
def value? : Nat → Nat → List Char → Option (Value × List Char)
  | 0, _, _ => none
  | n + 1, depth, cs =>
    match cs with
    | '"' :: '"' :: '"' :: cs => textValue (basicLines (skipLineEnd cs))
    | '\'' :: '\'' :: '\'' :: cs => textValue (literalLines (skipLineEnd cs))
    | '"' :: cs => textValue (basicText cs)
    | '\'' :: cs => textValue (literalText cs)
    | '[' :: cs =>
      match depth with
      | 0 => none
      | depth + 1 => (items? n depth cs).map fun (items, rest) => (.array false items, rest)
    | '\x7b' :: cs =>
      match depth with
      | 0 => none
      | depth + 1 => do
        let (pairs, rest) ← pairs? n depth cs
        let table ← inlineTable? pairs
        some (table, rest)
    | cs =>
      let (word, rest) := bareWord cs
      (bareValue? word).map fun v => (v, rest)

def items? : Nat → Nat → List Char → Option (List Value × List Char)
  | 0, _, _ => none
  | n + 1, depth, cs => do
    match ← skipSpace false cs with
    | ']' :: rest => some ([], rest)
    | cs =>
      let (v, rest) ← value? n depth cs
      match ← skipSpace false rest with
      | ',' :: rest =>
        let (vs, rest) ← items? n depth rest
        some (v :: vs, rest)
      | ']' :: rest => some ([v], rest)
      | _ => none

def pairs? : Nat → Nat → List Char → Option (List (DottedKey × Value) × List Char)
  | 0, _, _ => none
  | n + 1, depth, cs => do
    match ← skipSpace false cs with
    | '\x7d' :: rest => some ([], rest)
    | cs =>
      let (key, rest) ← keyOfPair? cs
      let (v, rest) ← value? n depth rest
      match ← skipSpace false rest with
      | ',' :: rest =>
        let (pairs, rest) ← pairs? n depth rest
        some ((key, v) :: pairs, rest)
      | '\x7d' :: rest => some ([(key, v)], rest)
      | _ => none

end

def statement? (cs : List Char) : Option (Statement × List Char) :=
  match cs with
  | '[' :: '[' :: cs => do
    let (key, ']' :: ']' :: rest) ← key? (skipBlanks cs) | none
    let rest ← endLine false rest
    some (.element key, rest)
  | '[' :: cs => do
    let (key, ']' :: rest) ← key? (skipBlanks cs) | none
    let rest ← endLine false rest
    some (.header key, rest)
  | cs => do
    let (key, rest) ← keyOfLine? cs
    let (v, rest) ← value? (2 * rest.length + 2) nestingLimit rest
    let rest ← endLine false rest
    some (.assign key v, rest)

def statements? : Nat → List Char → Option (List Statement)
  | 0, _ => none
  | n + 1, cs => do
    match ← skipSpace false cs with
    | [] => some []
    | cs =>
      let (s, rest) ← statement? cs
      let rest ← statements? n rest
      some (s :: rest)

/-- A mark of the encoding may stand before everything else. -/
def skipMark : List Char → List Char
  | '\ufeff' :: cs => cs
  | cs => cs

def parse? (text : String) : Option Entries :=
  let cs := skipMark text.toList
  (statements? (cs.length + 1) cs).bind build?

end ArmSession.Toml
