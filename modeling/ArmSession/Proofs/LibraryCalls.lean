import ArmSession.Library

/-!
# Calls of the dynamic linker

What a loader does to its library is told by the calls that it makes of the linker. Whatever the
linker answers, a loader opens at most one library, and asks only about the handle that it was given
for it. What it holds is told by the calls that it has made.
-/

namespace ArmSession

/-- A call of the linker, with what came of it if a library was to be opened. -/
inductive LinkerEvent
  | opened (path : String) (handle : Handle)
  | refused (path : String)
  | asked (handle : Handle) (name : String)
  | closed (handle : Handle)

def LinkerEvent.call : LinkerEvent → LinkerCall
  | opened path _ | refused path => .openLibrary path
  | asked handle name => .lookUp handle name
  | closed handle => .closeLibrary handle

namespace Linker

def event (l : Linker) (earlier : List LinkerCall) : LinkerCall → LinkerEvent
  | .openLibrary path =>
    match l.opens earlier path with
    | .ok handle => .opened path handle
    | .error _ => .refused path
  | .lookUp handle name => .asked handle name
  | .closeLibrary handle => .closed handle

def events (l : Linker) (earlier : List LinkerCall) : List LinkerCall → List LinkerEvent
  | [] => []
  | call :: calls => l.event earlier call :: l.events (earlier ++ [call]) calls

def since (l before : Linker) : List LinkerEvent :=
  l.events before.history (l.history.drop before.history.length)

def called (l : Linker) (call : LinkerCall) : Linker := { l with history := l.history ++ [call] }

def Gives (l : Linker) (path : String) (handle : Handle) : Prop :=
  hasNul path = false ∧ l.opens l.history path = .ok handle

variable (l : Linker)

theorem since_self : l.since l = [] := by
  rw [since, List.drop_length]
  rfl

theorem since_called (call : LinkerCall) : (l.called call).since l = [l.event l.history call] := by
  have hnew : (l.called call).history.drop l.history.length = [call] := List.drop_left
  rw [since, hnew]
  rfl

theorem call_event (earlier : List LinkerCall) (call : LinkerCall) :
    (l.event earlier call).call = call := by
  cases call with
  | openLibrary path => cases h : l.opens earlier path <;> simp [event, h, LinkerEvent.call]
  | lookUp handle name => rfl
  | closeLibrary handle => rfl

theorem map_call_events (earlier calls : List LinkerCall) :
    (l.events earlier calls).map LinkerEvent.call = calls := by
  induction calls generalizing earlier with
  | nil => rfl
  | cons call calls ih => rw [events, List.map_cons, call_event, ih]

theorem history_eq_of_prefix {l before : Linker} (h : before.history <+: l.history) :
    l.history = before.history ++ (l.since before).map LinkerEvent.call := by
  rw [since, map_call_events]
  exact List.prefix_iff_eq_append.1 h |>.symm

section

variable {l : Linker} {path : String}

theorem not_gives_of_hasNul (h : hasNul path = true) (handle : Handle) : ¬l.Gives path handle := by
  intro hgives
  rw [hgives.1] at h
  cases h

theorem not_gives_of_error {text : Option String} (h : l.opens l.history path = .error text)
    (handle : Handle) : ¬l.Gives path handle := by
  intro hgives
  rw [hgives.2] at h
  cases h

end

end Linker

namespace LibraryLoader

section

variable {l : LibraryLoader}

inductive Loads (l : LibraryLoader) (path : String) (linker : Linker) : Loading → Prop
  | unspeakable (nul : hasNul path = true) :
      Loads l path linker ⟨.error (.loadFailed (path ++ ": path contains NUL")), l, linker, []⟩
  | refused {text : Option String} (speakable : hasNul path = false)
      (answer : linker.opens linker.history path = .error text) :
      Loads l path linker ⟨.error (.loadFailed (Linker.diagnostic text)), l,
        linker.called (.openLibrary path), []⟩
  | opened {handle : Handle} (gives : linker.Gives path handle) :
      Loads l path linker ⟨.ok (), ⟨some handle, some path⟩, linker.called (.openLibrary path),
        [⟨.debug, "Model library loaded: " ++ path⟩]⟩

theorem loads (h : l.isLoaded = false) (path : String) (linker : Linker) :
    Loads l path linker (l.loadPath path linker) := by
  have hnone : l.handle = none := by simpa [isLoaded] using h
  simp only [loadPath, hnone, Linker.openLibrary]
  cases hnul : hasNul path with
  | true => exact .unspeakable hnul
  | false =>
      cases hopens : linker.opens linker.history path with
      | error text => exact .refused hnul hopens
      | ok handle => exact .opened ⟨hnul, hopens⟩

theorem loadPath_of_loaded (h : l.isLoaded = true) (path : String) (linker : Linker) :
    l.loadPath path linker = ⟨.error .alreadyLoaded, l, linker, []⟩ := by
  obtain ⟨handle, hhandle⟩ := Option.isSome_iff_exists.1 h
  simp only [loadPath, hhandle]

theorem symbol_of_handle {handle : Handle} (h : l.handle = some handle) (name : String)
    (linker : Linker) : (l.symbol name linker).2 = linker ∨
      (l.symbol name linker).2 = linker.called (.lookUp handle name) := by
  simp only [symbol, h, Linker.lookUp]
  cases hasNul name with
  | true => exact .inl rfl
  | false => cases linker.finds linker.history handle name <;> exact .inr rfl

theorem symbol_of_empty (h : l.handle = none) (name : String) (linker : Linker) :
    l.symbol name linker = (.error (.fetchFailed "no model library loaded"), linker) := by
  simp only [symbol, h]

def closing (l : LibraryLoader) : List LinkerEvent := l.handle.toList.map .closed

theorem since_close (l : LibraryLoader) (linker : Linker) :
    (l.close linker).1.since linker = l.closing := by
  cases h : l.handle with
  | none =>
      simp only [close, closing, h]
      exact linker.since_self
  | some handle =>
      simp only [close, closing, h]
      exact linker.since_called _

end

section

variable {l : LibraryLoader} {path : String} {linker : Linker} {loading : Loading}

theorem Loads.prefix_history (h : Loads l path linker loading) :
    linker.history <+: loading.linker.history := by
  cases h with
  | unspeakable => exact List.prefix_refl _
  | refused => exact List.prefix_append _ _
  | opened => exact List.prefix_append _ _

theorem Loads.closed_notMem (h : Loads l path linker loading) (handle : Handle) :
    .closed handle ∉ loading.linker.since linker := by
  cases h with
  | unspeakable => simp [Linker.since_self]
  | refused _ answer => simp [Linker.since_called, Linker.event, answer]
  | opened gives => simp [Linker.since_called, Linker.event, gives.2]

end

section

variable (l : LibraryLoader) (linker : Linker)

theorem prefix_loadPath (path : String) :
    linker.history <+: (l.loadPath path linker).linker.history := by
  cases hloaded : l.isLoaded with
  | true =>
      rewrite [loadPath_of_loaded hloaded]
      exact List.prefix_refl _
  | false => exact (loads hloaded path linker).prefix_history

theorem closed_notMem_loadPath (path : String) (handle : Handle) :
    .closed handle ∉ (l.loadPath path linker).linker.since linker := by
  cases hloaded : l.isLoaded with
  | true => simp [loadPath_of_loaded hloaded, Linker.since_self]
  | false => exact (loads hloaded path linker).closed_notMem handle

theorem prefix_symbol (name : String) :
    linker.history <+: (l.symbol name linker).2.history := by
  cases hhandle : l.handle with
  | none =>
      rewrite [symbol_of_empty hhandle]
      exact List.prefix_refl _
  | some handle =>
      rcases symbol_of_handle hhandle name linker with hsymbol | hsymbol
      · rewrite [hsymbol]
        exact List.prefix_refl _
      · rw [hsymbol]
        exact List.prefix_append _ _

theorem closed_notMem_symbol (name : String) (handle : Handle) :
    .closed handle ∉ (l.symbol name linker).2.since linker := by
  cases hhandle : l.handle with
  | none => simp [symbol_of_empty hhandle, Linker.since_self]
  | some held =>
      rcases symbol_of_handle hhandle name linker with hsymbol | hsymbol
      · simp [hsymbol, Linker.since_self]
      · simp [hsymbol, Linker.since_called, Linker.event]

theorem history_close :
    (l.close linker).1.history = linker.history ++ l.closing.map LinkerEvent.call := by
  cases h : l.handle <;> simp [close, closing, h, Linker.closeLibrary, LinkerEvent.call]

theorem closed_mem_closing (handle : Handle) :
    .closed handle ∈ l.closing ↔ l.handle = some handle := by
  simp [closing, Option.mem_toList]

end

def IsRefusal (e : LinkerEvent) : Prop := ∃ path, e = .refused path

def Asks (handle : Handle) (e : LinkerEvent) : Prop := ∃ name, e = .asked handle name

/-- What a loader as it is has done: it was refused libraries, and then it may have opened the one
that it holds and asked about it. -/
inductive Alive : LibraryLoader → List LinkerEvent → Prop
  | empty {refusals : List LinkerEvent} (h : ∀ e ∈ refusals, IsRefusal e) : Alive .empty refusals
  | holding {refusals requests : List LinkerEvent} {path : String} {handle : Handle}
      (h : ∀ e ∈ refusals, IsRefusal e) (hrequests : ∀ e ∈ requests, Asks handle e) :
      Alive ⟨some handle, some path⟩ (refusals ++ .opened path handle :: requests)

/-- What a loader that was dropped has done. It has closed what it had opened, and has done nothing
since. -/
inductive Dropped : List LinkerEvent → Prop
  | empty {refusals : List LinkerEvent} (h : ∀ e ∈ refusals, IsRefusal e) : Dropped refusals
  | holding {refusals requests : List LinkerEvent} {path : String} {handle : Handle}
      (h : ∀ e ∈ refusals, IsRefusal e) (hrequests : ∀ e ∈ requests, Asks handle e) :
      Dropped (refusals ++ .opened path handle :: requests ++ [.closed handle])

namespace Alive

variable {l : LibraryLoader} {events : List LinkerEvent}

theorem isLoaded_iff (h : Alive l events) : l.isLoaded = true ↔ l.path.isSome = true := by
  cases h with
  | empty => exact Iff.rfl
  | holding => exact Iff.rfl

theorem eq_empty (h : Alive l events) (hunloaded : l.isLoaded = false) : l = .empty := by
  cases h with
  | empty => rfl
  | holding => cases hunloaded

theorem dropped (h : Alive l events) : Dropped (events ++ l.closing) := by
  cases h with
  | empty hrefusals =>
      rw [show closing .empty = [] from rfl, List.append_nil]
      exact .empty hrefusals
  | holding hrefusals hrequests => exact .holding hrefusals hrequests

/-- The path is that of the library that the loader has opened. -/
theorem path_iff (h : Alive l events) (path : String) :
    l.path = some path ↔ ∃ handle, .opened path handle ∈ events := by
  have hrefused {refusals : List LinkerEvent} (hrefusals : ∀ e ∈ refusals, IsRefusal e)
      (handle : Handle) : .opened path handle ∉ refusals := by
    intro hmem
    obtain ⟨_, hrefusal⟩ := hrefusals _ hmem
    cases hrefusal
  cases h with
  | empty hrefusals =>
      refine iff_of_false (fun hpath => nomatch hpath) ?_
      rintro ⟨handle, hmem⟩
      exact hrefused hrefusals handle hmem
  | holding hrefusals hrequests =>
      constructor
      · intro hpath
        cases hpath
        exact ⟨_, List.mem_append_right _ List.mem_cons_self⟩
      · rintro ⟨handle, hmem⟩
        rcases List.mem_append.1 hmem with hmem | hmem
        · exact absurd hmem (hrefused hrefusals handle)
        · rcases List.mem_cons.1 hmem with hmem | hmem
          · cases hmem
            rfl
          · obtain ⟨_, hrequest⟩ := hrequests _ hmem
            cases hrequest

theorem loads {path : String} {linker : Linker} {loading : Loading} (h : Alive l events)
    (hunloaded : l.isLoaded = false) (hloads : Loads l path linker loading) :
    Alive loading.loader (events ++ loading.linker.since linker) := by
  cases h with
  | holding => cases hunloaded
  | empty hrefusals =>
      cases hloads with
      | unspeakable =>
          rw [Linker.since_self, List.append_nil]
          exact .empty hrefusals
      | refused _ answer =>
          rw [Linker.since_called, Linker.event, answer]
          refine .empty (List.forall_mem_append.2 ⟨hrefusals, ?_⟩)
          simp [IsRefusal]
      | opened gives =>
          rw [Linker.since_called, Linker.event, gives.2]
          exact .holding hrefusals (List.forall_mem_nil _)

theorem loadPath (h : Alive l events) (path : String) (linker : Linker) :
    Alive (l.loadPath path linker).loader
      (events ++ (l.loadPath path linker).linker.since linker) := by
  cases hloaded : l.isLoaded with
  | true => rwa [loadPath_of_loaded hloaded, Linker.since_self, List.append_nil]
  | false => exact h.loads hloaded (l.loads hloaded path linker)

theorem symbol (h : Alive l events) (name : String) (linker : Linker) :
    Alive l (events ++ (l.symbol name linker).2.since linker) := by
  cases h with
  | empty hrefusals =>
      rw [symbol_of_empty rfl, Linker.since_self, List.append_nil]
      exact .empty hrefusals
  | @holding refusals requests path handle hrefusals hrequests =>
      rcases symbol_of_handle (l := ⟨some handle, some path⟩) rfl name linker with hsymbol | hsymbol
      · rw [hsymbol, Linker.since_self, List.append_nil]
        exact .holding hrefusals hrequests
      · rw [hsymbol, Linker.since_called, List.append_assoc, List.cons_append]
        refine .holding hrefusals (List.forall_mem_append.2 ⟨hrequests, ?_⟩)
        simp [Asks, Linker.event]

end Alive

end LibraryLoader

end ArmSession
