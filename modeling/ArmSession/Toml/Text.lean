import ArmSession.Digits

/-!
# Texts, blanks and comments

Texts stand in double quotes, where escapes are understood, or in single quotes, where they
are not; three quotes of either kind enclose several lines. Control characters other than the
tab stand nowhere, and a carriage return only before a line feed.
-/

namespace ArmSession.Toml

def isBlank (c : Char) : Bool := c = ' ' || c = '\t'

def isTextChar (c : Char) : Bool := c = '\t' || (0x20 ≤ c.toNat && c.toNat ≠ 0x7f)

def skipBlanks (cs : List Char) : List Char := cs.dropWhile isBlank

/-- Skips blanks, line ends and comments. Nothing if a comment holds what no comment may. -/
def skipSpace : Bool → List Char → Option (List Char)
  | _, [] => some []
  | _, '\n' :: cs => skipSpace false cs
  | _, '\r' :: '\n' :: cs => skipSpace false cs
  | true, c :: cs => if isTextChar c then skipSpace true cs else none
  | false, c :: cs =>
    if isBlank c then skipSpace false cs
    else if c = '#' then skipSpace true cs
    else some (c :: cs)

/-- What follows the line, if only blanks and a comment are left on it. -/
def endLine : Bool → List Char → Option (List Char)
  | _, [] => some []
  | _, '\n' :: cs => some cs
  | _, '\r' :: '\n' :: cs => some cs
  | true, c :: cs => if isTextChar c then endLine true cs else none
  | false, c :: cs =>
    if isBlank c then endLine false cs
    else if c = '#' then endLine true cs
    else none

def charOfHex? (digits : List Char) : Option Char := do
  let values ← digits.mapM digitValue?
  let code := ofDigits 16 values
  if code.isValidChar then some (Char.ofNat code) else none

def escapedChar? : Char → Option Char
  | 'b' => some '\x08'
  | 't' => some '\t'
  | 'n' => some '\n'
  | 'f' => some '\x0c'
  | 'r' => some '\r'
  | 'e' => some '\x1b'
  | '"' => some '"'
  | '\\' => some '\\'
  | _ => none

def escapeWidth? : Char → Option Nat
  | 'x' => some 2
  | 'u' => some 4
  | 'U' => some 8
  | _ => none

/-- The character that an escape stands for; the backslash has been taken. -/
def escape? : List Char → Option (Char × List Char)
  | [] => none
  | c :: cs =>
    match escapeWidth? c with
    | some width =>
      if cs.length < width then none
      else (charOfHex? (cs.take width)).map fun c => (c, cs.drop width)
    | none => (escapedChar? c).map fun c => (c, cs)

theorem length_lt_of_escape? {cs rest : List Char} {c : Char} (h : escape? cs = some (c, rest)) :
    rest.length < cs.length := by
  cases cs with
  | nil => simp [escape?] at h
  | cons d cs =>
      simp only [escape?] at h
      split at h
      · split at h
        · cases h
        · simp only [Option.map_eq_some_iff, Prod.mk.injEq] at h
          obtain ⟨_, _, _, rfl⟩ := h
          simp only [List.length_drop, List.length_cons]
          omega
      · simp only [Option.map_eq_some_iff, Prod.mk.injEq] at h
        obtain ⟨_, _, _, rfl⟩ := h
        simp

abbrev TextParse := Option (List Char × List Char)

def TextParse.cons (c : Char) (parse : TextParse) : TextParse :=
  parse.map fun (text, rest) => (c :: text, rest)

def basicText (cs : List Char) : TextParse :=
  match cs with
  | [] => none
  | '"' :: cs => some ([], cs)
  | '\\' :: cs =>
    match _h : escape? cs with
    | some (c, rest) => .cons c (basicText rest)
    | none => none
  | c :: cs => if isTextChar c then .cons c (basicText cs) else none
termination_by cs.length
decreasing_by
  · have := length_lt_of_escape? _h
    simp only [List.length_cons]
    omega
  · simp

def literalText : List Char → TextParse
  | [] => none
  | '\'' :: cs => some ([], cs)
  | c :: cs => if isTextChar c then .cons c (literalText cs) else none

/-- The line end after an opening triple quote is not part of the text. -/
def skipLineEnd : List Char → List Char
  | '\n' :: cs => cs
  | '\r' :: '\n' :: cs => cs
  | cs => cs

/-- Up to two more quotes before a closing triple quote belong to the text. -/
def closing (quote : Char) : List Char → List Char × List Char
  | c :: d :: cs =>
    if c = quote then if d = quote then ([c, d], cs) else ([c], d :: cs) else ([], c :: d :: cs)
  | [c] => if c = quote then ([c], []) else ([], [c])
  | [] => ([], [])

/-- The blanks and line ends that a backslash at the end of a line takes away. -/
def dropSpace : List Char → List Char
  | '\n' :: cs => dropSpace cs
  | '\r' :: '\n' :: cs => dropSpace cs
  | c :: cs => if isBlank c then dropSpace cs else c :: cs
  | [] => []

/-- What a backslash at the end of a line leads to, if only blanks follow it there. -/
def continuation? (cs : List Char) : Option (List Char) :=
  match skipBlanks cs with
  | '\n' :: rest => some (dropSpace rest)
  | '\r' :: '\n' :: rest => some (dropSpace rest)
  | _ => none

theorem length_dropSpace_le (cs : List Char) : (dropSpace cs).length ≤ cs.length := by
  fun_induction dropSpace cs with
  | case1 cs ih => simp only [List.length_cons]; omega
  | case2 cs ih => simp only [List.length_cons]; omega
  | case3 c cs _ _ _ ih => simp only [List.length_cons]; omega
  | case4 => simp
  | case5 => simp

theorem length_skipBlanks_le (cs : List Char) : (skipBlanks cs).length ≤ cs.length :=
  (List.dropWhile_sublist _).length_le

theorem length_le_of_continuation? {cs rest : List Char} (h : continuation? cs = some rest) :
    rest.length ≤ cs.length := by
  have hb := length_skipBlanks_le cs
  unfold continuation? at h
  split at h
  · next r hr =>
      cases h
      have := length_dropSpace_le r
      rw [hr] at hb
      simp only [List.length_cons] at hb
      omega
  · next r hr =>
      cases h
      have := length_dropSpace_le r
      rw [hr] at hb
      simp only [List.length_cons] at hb
      omega
  · cases h

def basicLines (cs : List Char) : TextParse :=
  match cs with
  | [] => none
  | '"' :: '"' :: '"' :: cs => some (closing '"' cs)
  | '\n' :: cs => .cons '\n' (basicLines cs)
  | '\r' :: '\n' :: cs => .cons '\r' (.cons '\n' (basicLines cs))
  | '\\' :: cs =>
    match _h : continuation? cs with
    | some rest => basicLines rest
    | none =>
      match _h : escape? cs with
      | some (c, rest) => .cons c (basicLines rest)
      | none => none
  | c :: cs => if isTextChar c then .cons c (basicLines cs) else none
termination_by cs.length
decreasing_by
  · simp
  · simp only [List.length_cons]
    omega
  · have := length_le_of_continuation? _h
    simp only [List.length_cons]
    omega
  · have := length_lt_of_escape? _h
    simp only [List.length_cons]
    omega
  · simp

def literalLines : List Char → TextParse
  | [] => none
  | '\'' :: '\'' :: '\'' :: cs => some (closing '\'' cs)
  | '\n' :: cs => .cons '\n' (literalLines cs)
  | '\r' :: '\n' :: cs => .cons '\r' (.cons '\n' (literalLines cs))
  | c :: cs => if isTextChar c then .cons c (literalLines cs) else none

end ArmSession.Toml
