import ArmSession.Toml.Document

/-!
# Documents of plain lines

A plain line gives a bare key a value, with a space on either side of the sign between them. Lines
of different keys, in whatever order, make a document that describes the table of what they give,
in this order, and a key that comes twice makes no document.
-/

namespace ArmSession.Toml

section

variable {c : Char} {cs : List Char}

theorem toNat_of_isDigit (h : c.isDigit = true) : 48 ≤ c.toNat ∧ c.toNat ≤ 57 := by
  simpa [Char.isDigit, UInt32.le_iff_toNat_le] using h

theorem digitValue?_of_isDigit (h : c.isDigit = true) :
    digitValue? c = some (c.toNat - '0'.toNat) := by
  obtain ⟨hlow, hhigh⟩ := toNat_of_isDigit h
  exact if_pos ⟨UInt32.le_iff_toNat_le.2 hlow, UInt32.le_iff_toNat_le.2 hhigh⟩

theorem isDigitIn_of_isDigit (h : c.isDigit = true) : isDigitIn 10 c = true := by
  have hrange := toNat_of_isDigit h
  rw [isDigitIn, digitValue?_of_isDigit h]
  exact decide_eq_true (show c.toNat - 48 < 10 by omega)

theorem ne_of_isDigit {d : Char} (h : c.isDigit = true) (hd : d.isDigit = false) : c ≠ d := by
  rintro rfl
  rw [h] at hd
  cases hd

theorem isWordChar_of_isDigit (h : c.isDigit = true) : isWordChar c = true := by
  have hne (d : Char) (hd : d.isDigit = false) : c ≠ d := ne_of_isDigit h hd
  simp [isWordChar, hne]

theorem isGrouped_of_isDigit (hne : cs ≠ []) (h : ∀ c ∈ cs, c.isDigit = true) :
    isGrouped (isDigitIn 10) cs = true := by
  fun_induction isGrouped (isDigitIn 10) cs with
  | case1 => exact absurd rfl hne
  | case2 c => exact isDigitIn_of_isDigit (h c (by simp))
  | case3 c cs ih => exact absurd (h '_' (by simp)) (by decide)
  | case4 c cs hmore _ ih =>
      have hrest := ih (fun h => hmore h) (fun d hd => h d (List.mem_cons_of_mem _ hd))
      rw [isDigitIn_of_isDigit (h c (by simp)), hrest]
      rfl

theorem valueOfDigits_of_isDigit (h : ∀ c ∈ cs, c.isDigit = true) :
    valueOfDigits 10 cs = Nat.ofDigitChars 10 cs 0 := by
  have hdigits : cs.filterMap digitValue? = cs.map fun c => c.toNat - '0'.toNat := by
    induction cs with
    | nil => rfl
    | cons c cs ih =>
        obtain ⟨hc, hcs⟩ := List.forall_mem_cons.1 h
        rw [List.filterMap_cons_some (digitValue?_of_isDigit hc), ih hcs, List.map_cons]
  rw [valueOfDigits, hdigits, ofDigits, List.foldl_map, Nat.ofDigitChars_eq_foldl]

end

section

variable (n : Nat)

theorem isDigit_toDigits : ∀ c ∈ Nat.toDigits 10 n, c.isDigit = true := fun _ hc =>
  Nat.isDigit_of_mem_toDigits (by decide) (by decide) hc

/-- No number begins with a spare zero. -/
theorem toDigits_ne_zero_cons (c : Char) (cs : List Char) : Nat.toDigits 10 n ≠ '0' :: c :: cs := by
  induction n using Nat.base_induction 10 (by decide) generalizing c cs with
  | single m hm =>
      rw [Nat.toDigits_of_lt_base hm]
      simp
  | digit m k hk hm ih =>
      rw [← Nat.toDigits_append_toDigits (by decide) hm hk, Nat.toDigits_of_lt_base hk]
      have hvalue : Nat.ofDigitChars 10 (Nat.toDigits 10 m) 0 = m := Nat.ofDigitChars_ten_toDigits
      intro h
      match hdigits : Nat.toDigits 10 m with
      | [] => exact Nat.toDigits_ne_nil hdigits
      | [d] =>
          rw [hdigits] at h hvalue
          obtain ⟨rfl, -⟩ := List.cons.inj h
          exact absurd hvalue (Nat.ne_of_lt hm)
      | d :: e :: es =>
          rw [hdigits] at h
          obtain ⟨rfl, -⟩ := List.cons.inj h
          exact ih e es hdigits

theorem natural?_toDigits : natural? 10 (Nat.toDigits 10 n) = some n := by
  have hdigits := isDigit_toDigits n
  rw [natural?, if_pos (isGrouped_of_isDigit Nat.toDigits_ne_nil hdigits),
    valueOfDigits_of_isDigit hdigits, Nat.ofDigitChars_ten_toDigits]

theorem integer?_toDigits : integer? (Nat.toDigits 10 n) = some (Int.ofNat n) := by
  have hdecimal : decimal? (Nat.toDigits 10 n) = some n := by
    unfold decimal?
    split
    · next c cs h => exact absurd h (toDigits_ne_zero_cons n c cs)
    · exact natural?_toDigits n
  have hdigits := isDigit_toDigits n
  unfold integer?
  split
  · next h => exact absurd h (toDigits_ne_zero_cons n _ _)
  · next h => exact absurd h (toDigits_ne_zero_cons n _ _)
  · next h => exact absurd h (toDigits_ne_zero_cons n _ _)
  · have hsigned : signed (Nat.toDigits 10 n) = (false, Nat.toDigits 10 n) := by
      unfold signed
      split
      · next h => exact absurd (hdigits '-' (by rw [h]; simp)) (by decide)
      · next h => exact absurd (hdigits '+' (by rw [h]; simp)) (by decide)
      · rfl
    rw [hsigned]
    dsimp only
    rw [hdecimal]
    rfl

end

/-- This text, at the end of a line, is read as this value. -/
structure Spells (text : List Char) (v : Value) : Prop where
  starts : ∀ c, text.head? = some c → isBlank c = false
  value : ∀ n depth rest, value? (n + 1) depth (text ++ '\n' :: rest) = some (v, '\n' :: rest)

theorem bareWord_of_isDigit {cs : List Char} (h : ∀ c ∈ cs, c.isDigit = true) (rest : List Char) :
    bareWord (cs ++ '\n' :: rest) = (cs, '\n' :: rest) := by
  have hword : ∀ c ∈ cs, isWordChar c = true := fun c hc => isWordChar_of_isDigit (h c hc)
  have hend : isWordChar '\n' = false := by decide
  rw [bareWord, List.takeWhile_append_of_pos hword, List.dropWhile_append_of_pos hword,
    List.takeWhile_cons, List.dropWhile_cons, hend]
  simp

theorem bareValue?_toDigits {n : Nat} (h : n < Nat.pow 2 128) :
    bareValue? (Nat.toDigits 10 n) = some (.integer (Int.ofNat n)) := by
  have hdigits := isDigit_toDigits n
  have hne (c : Char) (cs : List Char) (hc : c.isDigit = false) :
      Nat.toDigits 10 n ≠ c :: cs := by
    intro h
    rw [hdigits c (by rw [h]; simp)] at hc
    cases hc
  have hstorable : isStorable (Int.ofNat n) = true := by
    simp only [isStorable, Bool.and_eq_true, decide_eq_true_eq]
    exact ⟨by simp, Int.ofNat_lt.2 h⟩
  rw [bareValue?, if_neg (hne _ _ (by decide)), if_neg (hne _ _ (by decide)), integer?_toDigits]
  exact if_pos hstorable

/-- What begins with no quote and no bracket is read as a word. -/
theorem value?_of_word {c : Char} {cs word rest : List Char} (hquotes : c ≠ '"' ∧ c ≠ '\'')
    (hbrackets : c ≠ '[' ∧ c ≠ '\x7b') (hword : bareWord (c :: cs) = (word, rest))
    (n depth : Nat) :
    value? (n + 1) depth (c :: cs) = (bareValue? word).map fun v => (v, rest) := by
  unfold value?
  split
  · next h => exact absurd (List.cons.inj h).1 hquotes.1
  · next h => exact absurd (List.cons.inj h).1 hquotes.2
  · next h => exact absurd (List.cons.inj h).1 hquotes.1
  · next h => exact absurd (List.cons.inj h).1 hquotes.2
  · next h => exact absurd (List.cons.inj h).1 hbrackets.1
  · next h => exact absurd (List.cons.inj h).1 hbrackets.2
  · rw [hword]

theorem spells_toDigits {n : Nat} (h : n < Nat.pow 2 128) :
    Spells (Nat.toDigits 10 n) (.integer (Int.ofNat n)) := by
  have hdigits := isDigit_toDigits n
  obtain ⟨c, cs, hcons⟩ := List.exists_cons_of_ne_nil (Nat.toDigits_ne_nil (n := n) (b := 10))
  have hne (d : Char) (hd : d.isDigit = false) : c ≠ d :=
    ne_of_isDigit (hdigits c (by rw [hcons]; simp)) hd
  constructor
  · intro d hd
    rw [hcons] at hd
    obtain rfl := Option.some.inj hd
    simp [isBlank, hne]
  · intro fuel depth rest
    have hword := bareWord_of_isDigit hdigits rest
    rw [hcons, List.cons_append] at hword
    rw [hcons, List.cons_append, value?_of_word ⟨hne _ rfl, hne _ rfl⟩ ⟨hne _ rfl, hne _ rfl⟩ hword,
      ← hcons, bareValue?_toDigits h]
    rfl

/-- A character that stands for itself between double quotes. -/
def isPlainChar (c : Char) : Bool := isTextChar c && c ≠ '"' && c ≠ '\\'

theorem basicText_of_plain {cs : List Char} (h : ∀ c ∈ cs, isPlainChar c = true)
    (rest : List Char) : basicText (cs ++ '"' :: rest) = some (cs, rest) := by
  induction cs with
  | nil => simp [basicText]
  | cons c cs ih =>
      obtain ⟨hc, hcs⟩ := List.forall_mem_cons.1 h
      simp only [isPlainChar, Bool.and_eq_true, decide_eq_true_eq] at hc
      obtain ⟨⟨htext, hquote⟩, hslash⟩ := hc
      rw [List.cons_append, basicText, if_pos htext, ih hcs]
      · rfl
      · exact hquote
      · exact hslash

theorem spells_quoted {name : String} (hne : name.toList ≠ [])
    (h : ∀ c ∈ name.toList, isPlainChar c = true) :
    Spells ('"' :: name.toList ++ ['"']) (.text name) := by
  obtain ⟨c, cs, hcons⟩ := List.exists_cons_of_ne_nil hne
  constructor
  · intro d hd
    obtain rfl := Option.some.inj hd
    rfl
  · intro n depth rest
    have hquote : c ≠ '"' := by
      rintro rfl
      exact absurd (h '"' (by rw [hcons]; simp)) (by decide)
    have hread := basicText_of_plain h ('\n' :: rest)
    have hassoc : ('"' :: name.toList ++ ['"']) ++ '\n' :: rest =
        '"' :: (name.toList ++ '"' :: '\n' :: rest) := by simp
    rw [hassoc]
    unfold value?
    split
    · next heq =>
        rw [hcons] at heq
        exact absurd (List.cons.inj (List.cons.inj heq).2).1 hquote
    · next heq => exact absurd (List.cons.inj heq).1 (by decide)
    · next heq =>
        rw [← (List.cons.inj heq).2, hread]
        simp [textValue]
    · next heq => exact absurd (List.cons.inj heq).1 (by decide)
    · next heq => exact absurd (List.cons.inj heq).1 (by decide)
    · next heq => exact absurd (List.cons.inj heq).1 (by decide)
    · next hq _ _ _ => exact absurd rfl (hq _)

structure PlainLine where
  key : String
  text : List Char
  value : Value
  key_ne_nil : key.toList ≠ []
  key_bare : ∀ c ∈ key.toList, isBareKeyChar c = true
  spells : Spells text value

namespace PlainLine

def chars (l : PlainLine) : List Char := l.key.toList ++ ' ' :: '=' :: ' ' :: (l.text ++ ['\n'])

def entry (l : PlainLine) : String × Value := (l.key, l.value)

def statement (l : PlainLine) : Statement := .assign ⟨[], l.key⟩ l.value

variable (l : PlainLine) (rest : List Char)

theorem chars_append : l.chars ++ rest =
    l.key.toList ++ ' ' :: '=' :: ' ' :: (l.text ++ '\n' :: rest) := by
  simp [chars]

theorem exists_key_eq_cons :
    ∃ c cs, l.key.toList = c :: cs ∧ ∀ d, isBareKeyChar d = false → c ≠ d := by
  obtain ⟨c, cs, hcons⟩ := List.exists_cons_of_ne_nil l.key_ne_nil
  refine ⟨c, cs, hcons, fun d hd => ?_⟩
  rintro rfl
  rw [l.key_bare c (by rw [hcons]; simp)] at hd
  cases hd

theorem simpleKey?_key (cs : List Char) (hcs : ∀ c, cs.head? = some c → isBareKeyChar c = false) :
    simpleKey? (l.key.toList ++ cs) = some (l.key, cs) := by
  obtain ⟨c, ds, hcons, hne⟩ := l.exists_key_eq_cons
  have htake : cs.takeWhile isBareKeyChar = [] ∧ cs.dropWhile isBareKeyChar = cs := by
    cases cs with
    | nil => exact ⟨rfl, rfl⟩
    | cons d cs => simp [hcs d rfl]
  unfold simpleKey?
  split
  · next heq =>
      rw [hcons] at heq
      exact absurd (List.cons.inj heq).1 (hne _ (by decide))
  · next heq =>
      rw [hcons] at heq
      exact absurd (List.cons.inj heq).1 (hne _ (by decide))
  · rw [List.takeWhile_append_of_pos l.key_bare, List.dropWhile_append_of_pos l.key_bare,
      htake.1, htake.2, List.append_nil]
    have hsome : l.key.toList.isEmpty = false := by simp [hcons]
    simp only [hsome, Bool.false_eq_true, if_false, String.ofList_toList]

/-- The key is one name, which the sign ends. -/
theorem key?_chars : key? (l.chars ++ rest) =
    some (⟨[], l.key⟩, '=' :: ' ' :: (l.text ++ '\n' :: rest)) := by
  have hkey := l.simpleKey?_key (' ' :: '=' :: ' ' :: (l.text ++ '\n' :: rest)) fun c hc => by
    obtain rfl := Option.some.inj hc
    decide
  rw [chars_append, key?, nestingLimit, names?, hkey]
  rfl

theorem skipBlanks_text :
    skipBlanks (' ' :: (l.text ++ '\n' :: rest)) = l.text ++ '\n' :: rest := by
  have hspace : isBlank ' ' = true := by decide
  rw [skipBlanks, List.dropWhile_cons_of_pos hspace]
  cases htext : l.text with
  | nil => exact List.dropWhile_cons_of_neg (by decide)
  | cons c cs =>
      have hc : isBlank c = false := l.spells.starts c (by rw [htext]; rfl)
      exact List.dropWhile_cons_of_neg (by simp [hc])

theorem keyOfLine?_chars : keyOfLine? (l.chars ++ rest) =
    some (⟨[], l.key⟩, l.text ++ '\n' :: rest) := by
  rw [keyOfLine?, key?_chars]
  exact congrArg (fun cs => some (_, cs)) (l.skipBlanks_text rest)

theorem statement?_chars : statement? (l.chars ++ rest) = some (l.statement, rest) := by
  obtain ⟨c, cs, hcons, hne⟩ := l.exists_key_eq_cons
  have hline := l.keyOfLine?_chars rest
  have hchars := l.chars_append rest
  rw [hcons, List.cons_append] at hchars
  unfold statement?
  split
  · next heq =>
      rw [hchars] at heq
      exact absurd (List.cons.inj heq).1 (hne _ (by decide))
  · next heq =>
      rw [hchars] at heq
      exact absurd (List.cons.inj heq).1 (hne _ (by decide))
  · rw [hline]
    dsimp only [Option.bind_eq_bind, Option.bind_some]
    rw [l.spells.value]
    rfl

theorem skipSpace_chars : skipSpace false (l.chars ++ rest) = some (l.chars ++ rest) := by
  obtain ⟨c, cs, hcons, hne⟩ := l.exists_key_eq_cons
  rw [chars_append, hcons, List.cons_append]
  unfold skipSpace
  split
  · next heq => cases heq
  · next heq => exact absurd (List.cons.inj heq).1 (hne _ (by decide))
  · next heq => exact absurd (List.cons.inj heq).1 (hne _ (by decide))
  · exact absurd ‹false = true› (by decide)
  · next heq =>
      obtain ⟨rfl, rfl⟩ := List.cons.inj heq
      simp [isBlank, hne _ (show isBareKeyChar ' ' = false by decide),
        hne _ (show isBareKeyChar '\t' = false by decide),
        hne _ (show isBareKeyChar '#' = false by decide)]

end PlainLine

section

variable (lines : List PlainLine)

theorem statements?_lines (n : Nat) (h : lines.length < n) :
    statements? n (lines.flatMap PlainLine.chars) = some (lines.map PlainLine.statement) := by
  induction lines generalizing n with
  | nil =>
      obtain ⟨n, rfl⟩ := Nat.exists_eq_succ_of_ne_zero (Nat.ne_of_gt h)
      rfl
  | cons l lines ih =>
      obtain ⟨n, rfl⟩ := Nat.exists_eq_succ_of_ne_zero (Nat.ne_of_gt (Nat.zero_lt_of_lt h))
      have hrest := ih n (Nat.lt_of_succ_lt_succ h)
      rw [List.flatMap_cons, statements?, l.skipSpace_chars]
      dsimp only [Option.bind_eq_bind, Option.bind_some]
      split
      · next heq =>
          obtain ⟨c, cs, hcons, -⟩ := l.exists_key_eq_cons
          rw [l.chars_append, hcons] at heq
          cases heq
      · rw [l.statement?_chars]
        dsimp only [Option.bind_some]
        rw [hrest]
        rfl

namespace Entries

theorem lookUp?_eq_none_iff (es : Entries) (key : String) :
    es.lookUp? key = none ↔ key ∉ es.map Prod.fst := by
  induction es with
  | nil => simp [lookUp?]
  | cons e es ih =>
      obtain ⟨k, v⟩ := e
      by_cases hk : k = key
      · simp [lookUp?, hk]
      · simp [lookUp?, hk, ih, Ne.symm hk]

theorem put_of_lookUp?_eq_none {es : Entries} {key : String} (v : Value)
    (h : es.lookUp? key = none) : es.put key v = es ++ [(key, v)] := by
  induction es with
  | nil => rfl
  | cons e es ih =>
      obtain ⟨k, w⟩ := e
      by_cases hk : k = key
      · simp [lookUp?, hk] at h
      · simp only [lookUp?, hk, if_false] at h
        simp [put, hk, ih h]

end Entries

theorem add_statement (l : PlainLine) (es : Entries) : Draft.add ⟨es, []⟩ l.statement =
    if l.key ∈ es.map Prod.fst then none else some ⟨es ++ [l.entry], []⟩ := by
  cases hold : es.lookUp? l.key with
  | none =>
      have hkey := (Entries.lookUp?_eq_none_iff es l.key).1 hold
      have hput := Entries.put_of_lookUp?_eq_none l.value hold
      simp [Draft.add, PlainLine.statement, Entries.edit, DottedKey.assign, hold, hkey, hput,
        PlainLine.entry]
  | some v =>
      have hkey : l.key ∈ es.map Prod.fst := by
        refine Decidable.byContradiction fun hnew => ?_
        rw [(Entries.lookUp?_eq_none_iff es l.key).2 hnew] at hold
        cases hold
      rw [if_pos hkey]
      simp [Draft.add, PlainLine.statement, Entries.edit, DottedKey.assign, hold]

theorem foldlM_add_lines (es : Entries) (hes : (es.map Prod.fst).Nodup) :
    (lines.map PlainLine.statement).foldlM Draft.add ⟨es, []⟩ =
      if (es.map Prod.fst ++ lines.map PlainLine.key).Nodup then
        some ⟨es ++ lines.map PlainLine.entry, []⟩
      else none := by
  -- Each line moves its key from the second list to the first, so the two together stay the same.
  induction lines generalizing es with
  | nil => simp [hes]
  | cons l lines ih =>
      rw [List.map_cons, List.foldlM_cons, add_statement]
      by_cases hkey : l.key ∈ es.map Prod.fst
      · have htwice : ¬(es.map Prod.fst ++ (l :: lines).map PlainLine.key).Nodup := by
          intro hnodup
          exact (List.nodup_append.1 hnodup).2.2 l.key hkey l.key (by simp) rfl
        rw [if_pos hkey, if_neg htwice]
        rfl
      · have hnew : ((es ++ [l.entry]).map Prod.fst).Nodup := by
          rw [List.map_append]
          refine List.nodup_append.2 ⟨hes, by simp, ?_⟩
          rintro k hk k' hk' rfl
          obtain rfl : k = l.key := by simpa [PlainLine.entry] using hk'
          exact hkey hk
        have hkeys : (es ++ [l.entry]).map Prod.fst ++ lines.map PlainLine.key =
            es.map Prod.fst ++ (l :: lines).map PlainLine.key := by
          simp [PlainLine.entry]
        rw [if_neg hkey]
        dsimp only [Option.bind_eq_bind, Option.bind_some]
        rw [ih _ hnew, hkeys]
        simp

theorem build?_lines : build? (lines.map PlainLine.statement) =
    if (lines.map PlainLine.key).Nodup then some (lines.map PlainLine.entry) else none := by
  have hfold := foldlM_add_lines lines [] List.nodup_nil
  rw [build?, Draft.empty, hfold]
  by_cases h : (lines.map PlainLine.key).Nodup <;> simp [h]

/-- No mark of the encoding stands in front. -/
theorem skipMark_lines :
    skipMark (lines.flatMap PlainLine.chars) = lines.flatMap PlainLine.chars := by
  unfold skipMark
  split
  · next cs heq =>
      cases lines with
      | nil => cases heq
      | cons l lines =>
          obtain ⟨c, ds, hcons, hne⟩ := l.exists_key_eq_cons
          rw [List.flatMap_cons, l.chars_append, hcons] at heq
          exact absurd (List.cons.inj heq).1 (hne _ (by decide))
  · rfl

theorem length_le_length_chars : lines.length ≤ (lines.flatMap PlainLine.chars).length := by
  induction lines with
  | nil => exact Nat.le_refl 0
  | cons l lines ih =>
      simp only [List.length_cons, List.flatMap_cons, List.length_append, PlainLine.chars]
      omega

/-- Lines describe the table of what they give, unless two of them give the same key a value. -/
theorem parse?_lines {text : String} (h : text.toList = lines.flatMap PlainLine.chars) :
    parse? text =
      if (lines.map PlainLine.key).Nodup then some (lines.map PlainLine.entry) else none := by
  have hread := statements?_lines lines _ (Nat.lt_succ_of_le (length_le_length_chars lines))
  rw [parse?, h, skipMark_lines, hread, Option.bind_some, build?_lines]

end

end ArmSession.Toml
