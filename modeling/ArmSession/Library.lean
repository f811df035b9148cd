import ArmSession.Log

/-!
# Model libraries

A loader holds at most one library, which the dynamic linker opened for it. The linker is
given by its answers, which may depend on all earlier calls, and keeps a history of the calls
that were made to it.
-/

namespace ArmSession

inductive LibraryError
  | alreadyLoaded
  | symbolNotFound (text : String)
  | loadFailed (text : String)
  | fetchFailed (text : String)
deriving DecidableEq

def LibraryError.message : LibraryError → String
  | alreadyLoaded => "model library already loaded"
  | symbolNotFound text => "symbol cannot be found: " ++ text
  | loadFailed text => "cannot load model library: " ++ text
  | fetchFailed text => "error while fetching symbols: " ++ text

abbrev Handle := Nat

abbrev Address := Nat

inductive LinkerCall
  | openLibrary (path : String)
  | lookUp (handle : Handle) (name : String)
  | closeLibrary (handle : Handle)
deriving DecidableEq

/-- A dynamic linker. A refusal may come without a diagnostic. -/
structure Linker where
  opens : List LinkerCall → String → Except (Option String) Handle
  finds : List LinkerCall → Handle → String → Except (Option String) Address
  history : List LinkerCall

namespace Linker

def diagnostic (text : Option String) : String := text.getD "unknown error"

def openLibrary (l : Linker) (path : String) : Except (Option String) Handle × Linker :=
  (l.opens l.history path, { l with history := l.history ++ [.openLibrary path] })

def lookUp (l : Linker) (handle : Handle) (name : String) :
    Except (Option String) Address × Linker :=
  (l.finds l.history handle name, { l with history := l.history ++ [.lookUp handle name] })

def closeLibrary (l : Linker) (handle : Handle) : Linker :=
  { l with history := l.history ++ [.closeLibrary handle] }

end Linker

/-- The linker takes texts that end at a zero character, so a text that holds one is not
passed on. -/
def hasNul (text : String) : Bool := text.toList.contains '\x00'

structure LibraryLoader where
  handle : Option Handle
  path : Option String
deriving DecidableEq

namespace LibraryLoader

def empty : LibraryLoader := ⟨none, none⟩

def isLoaded (l : LibraryLoader) : Bool := l.handle.isSome

def librarySuffix : String := ".so"

structure Loading where
  result : Except LibraryError Unit
  loader : LibraryLoader
  linker : Linker
  log : List Log.Line

def loadPath (l : LibraryLoader) (path : String) (linker : Linker) : Loading :=
  match l.handle with
  | some _ => ⟨.error .alreadyLoaded, l, linker, []⟩
  | none =>
    if hasNul path then ⟨.error (.loadFailed (path ++ ": path contains NUL")), l, linker, []⟩
    else match linker.openLibrary path with
      | (.ok handle, linker) =>
        ⟨.ok (), ⟨some handle, some path⟩, linker, [⟨.debug, "Model library loaded: " ++ path⟩]⟩
      | (.error text, linker) =>
        ⟨.error (.loadFailed (Linker.diagnostic text)), l, linker, []⟩

def load (l : LibraryLoader) (name : String) (linker : Linker) : Loading :=
  l.loadPath (name ++ librarySuffix) linker

def symbol (l : LibraryLoader) (name : String) (linker : Linker) :
    Except LibraryError Address × Linker :=
  match l.handle with
  | none => (.error (.fetchFailed "no model library loaded"), linker)
  | some handle =>
    if hasNul name then (.error (.fetchFailed (name ++ ": name contains NUL")), linker)
    else match linker.lookUp handle name with
      | (.ok address, linker) => (.ok address, linker)
      | (.error text, linker) =>
        (.error (.symbolNotFound (name ++ ": " ++ Linker.diagnostic text)), linker)

/-- A character between double quotes; what would end or break the line is escaped. -/
def quotedChar (c : Char) : String :=
  match c with
  | '"' => "\\\""
  | '\\' => "\\\\"
  | '\n' => "\\n"
  | '\r' => "\\r"
  | '\t' => "\\t"
  | c =>
    if c.toNat < 0x20 ∨ c.toNat = 0x7f then
      "\\u\x7b" ++ String.ofList (Nat.toDigits 16 c.toNat) ++ "\x7d"
    else String.singleton c

def quoted (text : String) : String :=
  "\"" ++ String.join (text.toList.map quotedChar) ++ "\""

def quotedPath : Option String → String
  | none => "None"
  | some path => "Some(" ++ quoted path ++ ")"

def close (l : LibraryLoader) (linker : Linker) : Linker × List Log.Line :=
  match l.handle with
  | none => (linker, [])
  | some handle =>
    (linker.closeLibrary handle, [⟨.debug, "Model library unloaded: " ++ quotedPath l.path⟩])

/-- Loads a library into a new loader, which then takes the place of `old`. The old library
is closed after the new one is open, and stays if that fails. -/
def reopen (old : LibraryLoader) (name : String) (linker : Linker) : Loading :=
  let opened := empty.load name linker
  match opened.result with
  | .error e => ⟨.error e, old, opened.linker, opened.log⟩
  | .ok () =>
    let (linker, log) := old.close opened.linker
    ⟨.ok (), opened.loader, linker, opened.log ++ log⟩

end LibraryLoader

end ArmSession
