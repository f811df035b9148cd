import ArmSession.Proofs.LibraryCalls

/-!
# Handles of model libraries

Loaders follow one another in one place, and each call of the linker is made by one of them.
Whatever is done there, a loader that opened a library closes its handle once, when it is dropped,
and makes no call after that.
-/

namespace ArmSession.LibraryLoader

/-- A place with the loader that is there. The loaders that were made for it are numbered. -/
structure Place where
  loader : LibraryLoader
  number : Nat
  made : Nat
  linker : Linker

def Place.fresh (linker : Linker) : Place := ⟨.empty, 0, 1, linker⟩

/-- What can be done in a place. When a loader is dropped, an empty one comes after it. -/
inductive Operation
  | load (name : String)
  | loadPath (path : String)
  | symbol (name : String)
  | reopen (name : String)
  | drop

def Operation.path? : Operation → Option String
  | load name => some (name ++ librarySuffix)
  | loadPath path => some path
  | _ => none

inductive Answer
  | loaded (result : Except LibraryError Unit)
  | found (result : Except LibraryError Address)
  | dropped

structure Performance where
  answer : Answer
  after : Place
  log : List Log.Line

namespace Place

def perform (p : Place) : Operation → Performance
  | .load name =>
    let loading := p.loader.load name p.linker
    ⟨.loaded loading.result, { p with loader := loading.loader, linker := loading.linker },
      loading.log⟩
  | .loadPath path =>
    let loading := p.loader.loadPath path p.linker
    ⟨.loaded loading.result, { p with loader := loading.loader, linker := loading.linker },
      loading.log⟩
  | .symbol name =>
    let (found, linker) := p.loader.symbol name p.linker
    ⟨.found found, { p with linker }, []⟩
  | .reopen name =>
    let loading := p.loader.reopen name p.linker
    let number := match loading.result with
      | .ok () => p.made
      | .error _ => p.number
    ⟨.loaded loading.result, ⟨loading.loader, number, p.made + 1, loading.linker⟩, loading.log⟩
  | .drop =>
    let (linker, log) := p.loader.close p.linker
    ⟨.dropped, ⟨.empty, p.made, p.made + 1, linker⟩, log⟩

end Place

structure Step where
  before : Place
  op : Operation

namespace Step

def performance (s : Step) : Performance := s.before.perform s.op

def answer (s : Step) : Answer := s.performance.answer

def after (s : Step) : Place := s.performance.after

/-- The calls of the linker, each with the number of the loader that makes it. What a reopening does
first is done by the new loader, and the rest by the old one. -/
def events (s : Step) : List (Nat × LinkerEvent) :=
  match s.op with
  | .reopen name =>
    let between := (empty.load name s.before.linker).linker
    (between.since s.before.linker).map (s.before.made, ·) ++
      (s.after.linker.since between).map (s.before.number, ·)
  | _ => (s.after.linker.since s.before.linker).map (s.before.number, ·)

def drops (s : Step) : Bool :=
  match s.op, s.answer with
  | .drop, _ => true
  | .reopen _, .loaded (.ok ()) => true
  | _, _ => false

end Step

namespace Place

def steps (p : Place) : List Operation → List Step
  | [] => []
  | op :: ops => ⟨p, op⟩ :: steps (Step.after ⟨p, op⟩) ops

def after (p : Place) (ops : List Operation) : Place :=
  ops.foldl (fun p op => Step.after ⟨p, op⟩) p

def events (p : Place) (ops : List Operation) : List (Nat × LinkerEvent) :=
  (p.steps ops).flatMap Step.events

end Place

def eventsOf (number : Nat) (events : List (Nat × LinkerEvent)) : List LinkerEvent :=
  events.filterMap fun (n, e) => if n = number then some e else none

section

variable {m n : Nat}

theorem eventsOf_append (n : Nat) (events events' : List (Nat × LinkerEvent)) :
    eventsOf n (events ++ events') = eventsOf n events ++ eventsOf n events' :=
  List.filterMap_append

theorem eventsOf_map_self (n : Nat) (events : List LinkerEvent) :
    eventsOf n (events.map (n, ·)) = events := by
  rw [eventsOf, List.filterMap_map]
  have hown : (fun e => if n = n then some e else none) = (some : LinkerEvent → _) :=
    funext fun _ => if_pos rfl
  exact (congrArg (List.filterMap · events) hown).trans List.filterMap_some

theorem eventsOf_map_of_ne (h : m ≠ n) (events : List LinkerEvent) :
    eventsOf n (events.map (m, ·)) = [] := by
  rw [eventsOf, List.filterMap_map]
  exact List.filterMap_eq_nil_iff.2 fun _ _ => if_neg h

end

inductive LoadStep (s : Step) (path : String) : Prop
  | loaded {handle : Handle} (gives : s.before.linker.Gives path handle)
      (answer : s.answer = .loaded (.ok ())) (loader : s.after.loader = ⟨some handle, some path⟩)
  | failed {text : String} (refuses : ∀ handle, ¬s.before.linker.Gives path handle)
      (answer : s.answer = .loaded (.error (.loadFailed text)))
      (loader : s.after.loader = s.before.loader)

/-- What comes of opening a library with a new loader. It takes the place of the old one, which is
then dropped, or the old one stays. -/
inductive ReopenStep (s : Step) (path : String) : Prop
  | replaced {handle : Handle} (gives : s.before.linker.Gives path handle)
      (answer : s.answer = .loaded (.ok ()))
      (after : s.after =
        ⟨⟨some handle, some path⟩, s.before.made, s.before.made + 1, s.after.linker⟩)
      (events : s.events = (s.before.made, .opened path handle) ::
        s.before.loader.closing.map (s.before.number, ·))
  | kept {text : String} {refusals : List LinkerEvent}
      (refuses : ∀ handle, ¬s.before.linker.Gives path handle)
      (answer : s.answer = .loaded (.error (.loadFailed text)))
      (after : s.after =
        ⟨s.before.loader, s.before.number, s.before.made + 1, s.after.linker⟩)
      (refused : ∀ e ∈ refusals, IsRefusal e) (events : s.events = refusals.map (s.before.made, ·))

namespace Step

variable (s : Step) {path name : String}

theorem path?_of_load (hop : s.op = .load name) : s.op.path? = some (name ++ librarySuffix) := by
  rw [hop]
  rfl

theorem path?_of_loadPath (hop : s.op = .loadPath path) : s.op.path? = some path := by
  rw [hop]
  rfl

theorem performance_of_path (hop : s.op.path? = some path) :
    let loading := s.before.loader.loadPath path s.before.linker
    s.performance = ⟨.loaded loading.result,
      { s.before with loader := loading.loader, linker := loading.linker }, loading.log⟩ := by
  obtain ⟨p, op⟩ := s
  cases op <;> cases hop <;> rfl

theorem events_of_path (hop : s.op.path? = some path) : s.events =
    ((s.before.loader.loadPath path s.before.linker).linker.since s.before.linker).map
      (s.before.number, ·) := by
  obtain ⟨p, op⟩ := s
  cases op <;> cases hop <;> rfl

/-- A loader that holds a library loads no other. -/
theorem unchanged_of_loaded (hop : s.op.path? = some path)
    (hloaded : s.before.loader.isLoaded = true) :
    s.performance = ⟨.loaded (.error .alreadyLoaded), s.before, []⟩ := by
  rw [s.performance_of_path hop, loadPath_of_loaded hloaded]

theorem loadStep (hop : s.op.path? = some path) (hloaded : s.before.loader.isLoaded = false) :
    LoadStep s path := by
  have hloads := loads hloaded path s.before.linker
  have hperformance := s.performance_of_path hop
  cases hloading : s.before.loader.loadPath path s.before.linker with
  | mk result loader linker log =>
  rw [hloading] at hloads hperformance
  have hanswer : s.answer = .loaded result := congrArg Performance.answer hperformance
  have hafter : s.after.loader = loader := congrArg (·.after.loader) hperformance
  cases hloads with
  | unspeakable nul => exact .failed (Linker.not_gives_of_hasNul nul) hanswer hafter
  | refused _ answer => exact .failed (Linker.not_gives_of_error answer) hanswer hafter
  | opened gives => exact .loaded gives hanswer hafter

theorem performance_of_symbol (hop : s.op = .symbol name) :
    let asked := s.before.loader.symbol name s.before.linker
    s.performance = ⟨.found asked.1, { s.before with linker := asked.2 }, []⟩ ∧
      s.events = (asked.2.since s.before.linker).map (s.before.number, ·) := by
  obtain ⟨p, op⟩ := s
  obtain rfl : op = .symbol name := hop
  exact ⟨rfl, rfl⟩

section

variable {loader : LibraryLoader} {linker : Linker} {log : List Log.Line}

theorem reopen_of_error (hop : s.op = .reopen name) {e : LibraryError}
    (h : empty.load name s.before.linker = ⟨.error e, loader, linker, log⟩) :
    s.performance = ⟨.loaded (.error e),
      ⟨s.before.loader, s.before.number, s.before.made + 1, linker⟩, log⟩ ∧
      s.events = (linker.since s.before.linker).map (s.before.made, ·) := by
  obtain ⟨p, op⟩ := s
  obtain rfl : op = .reopen name := hop
  have hperformance : Step.performance ⟨p, .reopen name⟩ =
      ⟨.loaded (.error e), ⟨p.loader, p.number, p.made + 1, linker⟩, log⟩ := by
    simp only [performance, Place.perform, reopen, h]
  refine ⟨hperformance, ?_⟩
  simp only [events, after, hperformance, h, Linker.since_self, List.map_nil, List.append_nil]

theorem reopen_of_ok (hop : s.op = .reopen name)
    (h : empty.load name s.before.linker = ⟨.ok (), loader, linker, log⟩) :
    let closed := s.before.loader.close linker
    s.performance = ⟨.loaded (.ok ()),
      ⟨loader, s.before.made, s.before.made + 1, closed.1⟩, log ++ closed.2⟩ ∧
      s.events = (linker.since s.before.linker).map (s.before.made, ·) ++
        s.before.loader.closing.map (s.before.number, ·) := by
  obtain ⟨p, op⟩ := s
  obtain rfl : op = .reopen name := hop
  have hperformance : Step.performance ⟨p, .reopen name⟩ = ⟨.loaded (.ok ()),
      ⟨loader, p.made, p.made + 1, (p.loader.close linker).1⟩,
      log ++ (p.loader.close linker).2⟩ := by
    simp only [performance, Place.perform, reopen, h]
  refine ⟨hperformance, ?_⟩
  simp only [events, after, hperformance, h, since_close]

end

theorem reopenStep (hop : s.op = .reopen name) : ReopenStep s (name ++ librarySuffix) := by
  have hloads := loads (l := empty) rfl (name ++ librarySuffix) s.before.linker
  cases hloading : empty.load name s.before.linker with
  | mk result loader linker log =>
  have hload : empty.loadPath (name ++ librarySuffix) s.before.linker =
      ⟨result, loader, linker, log⟩ := hloading
  rw [hload] at hloads
  cases hloads with
  | unspeakable nul =>
      obtain ⟨hperformance, hevents⟩ := s.reopen_of_error hop hloading
      rw [Linker.since_self] at hevents
      have hanswer : s.answer = .loaded (.error _) := congrArg Performance.answer hperformance
      refine .kept (Linker.not_gives_of_hasNul nul) hanswer ?_ (List.forall_mem_nil _) hevents
      rw [after, hperformance]
  | refused _ hrefused =>
      obtain ⟨hperformance, hevents⟩ := s.reopen_of_error hop hloading
      rw [Linker.since_called, Linker.event, hrefused] at hevents
      have hanswer : s.answer = .loaded (.error _) := congrArg Performance.answer hperformance
      refine .kept (Linker.not_gives_of_error hrefused) hanswer ?_ ?_ hevents
      · rw [after, hperformance]
      · simp [IsRefusal]
  | opened gives =>
      obtain ⟨hperformance, hevents⟩ := s.reopen_of_ok hop hloading
      rw [Linker.since_called, Linker.event, gives.2] at hevents
      refine .replaced gives (congrArg Performance.answer hperformance) ?_ hevents
      rw [after, hperformance]

theorem performance_of_drop (hop : s.op = .drop) :
    let closed := s.before.loader.close s.before.linker
    s.performance = ⟨.dropped, ⟨empty, s.before.made, s.before.made + 1, closed.1⟩, closed.2⟩ ∧
      s.events = s.before.loader.closing.map (s.before.number, ·) := by
  obtain ⟨p, op⟩ := s
  obtain rfl : op = .drop := hop
  refine ⟨rfl, ?_⟩
  exact congrArg (List.map (p.number, ·)) (since_close p.loader p.linker)

end Step

/-- What the loaders of a place have done: the one that is there, those that were dropped, and those
that are still to come. Every operation preserves this, so that it tells of any number of them. -/
structure Lives (p : Place) (events : List (Nat × LinkerEvent)) : Prop where
  number_lt : p.number < p.made
  current : Alive p.loader (eventsOf p.number events)
  dropped : ∀ n < p.made, n ≠ p.number → Dropped (eventsOf n events)
  unmade : ∀ n, p.made ≤ n → eventsOf n events = []

namespace Lives

variable {p : Place} {events : List (Nat × LinkerEvent)} {loader : LibraryLoader}
  {new : List LinkerEvent}

theorem fresh (linker : Linker) : Lives (.fresh linker) [] where
  number_lt := Nat.zero_lt_one
  current := .empty (List.forall_mem_nil _)
  dropped _ hn hne := absurd (Nat.lt_one_iff.1 hn) hne
  unmade _ _ := rfl

theorem act (h : Lives p events) (hnew : Alive loader (eventsOf p.number events ++ new))
    (linker : Linker) :
    Lives { p with loader, linker } (events ++ new.map (p.number, ·)) where
  number_lt := h.number_lt
  current := by
    rw [eventsOf_append, eventsOf_map_self]
    exact hnew
  dropped n hn hne := by
    rw [eventsOf_append, eventsOf_map_of_ne (Ne.symm hne), List.append_nil]
    exact h.dropped n hn hne
  unmade n hn := by
    rw [eventsOf_append, eventsOf_map_of_ne (Nat.ne_of_lt (Nat.lt_of_lt_of_le h.number_lt hn)),
      List.append_nil]
    exact h.unmade n hn

/-- A new loader opens nothing and is dropped. -/
theorem attempt (h : Lives p events) (hnew : ∀ e ∈ new, IsRefusal e) (linker : Linker) :
    Lives ⟨p.loader, p.number, p.made + 1, linker⟩ (events ++ new.map (p.made, ·)) where
  number_lt := Nat.lt_succ_of_lt h.number_lt
  current := by
    rw [eventsOf_append, eventsOf_map_of_ne (Nat.ne_of_gt h.number_lt), List.append_nil]
    exact h.current
  dropped n hn hne := by
    -- The number of the new loader was free, so its events are all that it has.
    by_cases hmade : p.made = n
    · subst hmade
      rw [eventsOf_append, h.unmade _ (Nat.le_refl _), eventsOf_map_self]
      exact .empty hnew
    · rw [eventsOf_append, eventsOf_map_of_ne hmade, List.append_nil]
      exact h.dropped n (Nat.lt_of_le_of_ne (Nat.le_of_lt_succ hn) (Ne.symm hmade)) hne
  unmade n hn := by
    rw [eventsOf_append, eventsOf_map_of_ne (Nat.ne_of_lt hn), List.append_nil]
    exact h.unmade n (Nat.le_of_succ_le hn)

/-- A new loader takes the place of the old one, which is dropped. -/
theorem succeed (h : Lives p events) (hnew : Alive loader new) (linker : Linker) :
    Lives ⟨loader, p.made, p.made + 1, linker⟩
      (events ++ (new.map (p.made, ·) ++ p.loader.closing.map (p.number, ·))) where
  number_lt := Nat.lt_succ_self _
  current := by
    rw [eventsOf_append, eventsOf_append, h.unmade _ (Nat.le_refl _), eventsOf_map_self,
      eventsOf_map_of_ne (Nat.ne_of_lt h.number_lt), List.append_nil]
    exact hnew
  dropped n hn hne := by
    rw [eventsOf_append, eventsOf_append, eventsOf_map_of_ne (Ne.symm hne), List.nil_append]
    by_cases hnumber : p.number = n
    · subst hnumber
      rw [eventsOf_map_self]
      exact h.current.dropped
    · rw [eventsOf_map_of_ne hnumber, List.append_nil]
      exact h.dropped n (Nat.lt_of_le_of_ne (Nat.le_of_lt_succ hn) hne) (Ne.symm hnumber)
  unmade n hn := by
    have hmade : p.made ≠ n := Nat.ne_of_lt hn
    have hnumber : p.number ≠ n := Nat.ne_of_lt (Nat.lt_trans h.number_lt hn)
    rw [eventsOf_append, eventsOf_append, eventsOf_map_of_ne hmade, eventsOf_map_of_ne hnumber]
    exact (List.append_nil _).trans (h.unmade n (Nat.le_of_succ_le hn))

theorem load {s : Step} {path : String} (h : Lives s.before events)
    (hop : s.op.path? = some path) : Lives s.after (events ++ s.events) := by
  rw [Step.after, s.performance_of_path hop, s.events_of_path hop]
  exact h.act (h.current.loadPath path s.before.linker) _

theorem symbol {s : Step} {name : String} (h : Lives s.before events)
    (hop : s.op = .symbol name) : Lives s.after (events ++ s.events) := by
  obtain ⟨hperformance, hevents⟩ := s.performance_of_symbol hop
  rw [Step.after, hperformance, hevents]
  exact h.act (h.current.symbol name s.before.linker) _

theorem reopen {s : Step} {name : String} (h : Lives s.before events)
    (hop : s.op = .reopen name) : Lives s.after (events ++ s.events) := by
  cases s.reopenStep hop with
  | @replaced handle _ _ hafter hevents =>
      have hnew : Alive ⟨some handle, some (name ++ librarySuffix)⟩
          [.opened (name ++ librarySuffix) handle] :=
        .holding (List.forall_mem_nil _) (List.forall_mem_nil _)
      rw [hafter, hevents]
      exact h.succeed hnew _
  | kept _ _ hafter hrefused hevents =>
      rw [hafter, hevents]
      exact h.attempt hrefused _

theorem step {s : Step} (h : Lives s.before events) : Lives s.after (events ++ s.events) := by
  cases hop : s.op with
  | load name => exact h.load (s.path?_of_load hop)
  | loadPath path => exact h.load (s.path?_of_loadPath hop)
  | symbol name => exact h.symbol hop
  | reopen name => exact h.reopen hop
  | drop =>
      obtain ⟨hperformance, hevents⟩ := s.performance_of_drop hop
      rw [Step.after, hperformance, hevents]
      exact h.succeed (.empty (List.forall_mem_nil _)) _

theorem after (ops : List Operation) (h : Lives p events) :
    Lives (p.after ops) (events ++ p.events ops) := by
  induction ops generalizing p events with
  | nil =>
      rw [Place.events, Place.steps, List.flatMap_nil, List.append_nil]
      exact h
  | cons op ops ih =>
      have hrest := ih (Lives.step (s := ⟨p, op⟩) h)
      rw [List.append_assoc] at hrest
      exact hrest

end Lives

namespace Step

variable (s : Step)

theorem history_of_path {path : String} (hop : s.op.path? = some path) :
    s.after.linker.history = s.before.linker.history ++ s.events.map (·.2.call) := by
  rw [after, s.performance_of_path hop, s.events_of_path hop, List.map_map]
  exact Linker.history_eq_of_prefix (prefix_loadPath _ _ _)

theorem history_of_reopen {name : String} (hop : s.op = .reopen name) :
    s.after.linker.history = s.before.linker.history ++ s.events.map (·.2.call) := by
  have hprefix := prefix_loadPath empty s.before.linker (name ++ librarySuffix)
  cases hloading : empty.load name s.before.linker with
  | mk result loader linker log =>
  have hload : empty.loadPath (name ++ librarySuffix) s.before.linker =
      ⟨result, loader, linker, log⟩ := hloading
  rw [hload] at hprefix
  have hopened := Linker.history_eq_of_prefix hprefix
  cases result with
  | error e =>
      obtain ⟨hperformance, hevents⟩ := s.reopen_of_error hop hloading
      rw [after, hperformance, hevents, List.map_map]
      exact hopened
  | ok u =>
      obtain ⟨hperformance, hevents⟩ := s.reopen_of_ok hop hloading
      have hclosed := history_close s.before.loader linker
      rw [hopened, List.append_assoc] at hclosed
      rw [after, hperformance, hevents, List.map_append, List.map_map, List.map_map]
      exact hclosed

/-- The calls of a step are those that the linker notes down. -/
theorem history_after : s.after.linker.history =
    s.before.linker.history ++ s.events.map (·.2.call) := by
  cases hop : s.op with
  | load name => exact s.history_of_path (s.path?_of_load hop)
  | loadPath path => exact s.history_of_path (s.path?_of_loadPath hop)
  | symbol name =>
      obtain ⟨hperformance, hevents⟩ := s.performance_of_symbol hop
      rw [after, hperformance, hevents, List.map_map]
      exact Linker.history_eq_of_prefix (prefix_symbol _ _ _)
  | reopen name => exact s.history_of_reopen hop
  | drop =>
      obtain ⟨hperformance, hevents⟩ := s.performance_of_drop hop
      rw [after, hperformance, hevents, List.map_map]
      exact history_close _ _

theorem mem_map_prod {m n : Nat} {e : LinkerEvent} {events : List LinkerEvent} :
    (n, e) ∈ events.map (m, ·) ↔ n = m ∧ e ∈ events := by
  simp only [List.mem_map, Prod.mk.injEq]
  constructor
  · rintro ⟨_, he, rfl, rfl⟩
    exact ⟨rfl, he⟩
  · rintro ⟨rfl, he⟩
    exact ⟨e, he, rfl, rfl⟩

theorem closed_notMem_of_path {path : String} (hop : s.op.path? = some path) {number : Nat}
    {handle : Handle} : (number, .closed handle) ∉ s.events := by
  rw [s.events_of_path hop, mem_map_prod]
  exact fun h => closed_notMem_loadPath _ _ _ _ h.2

/-- A library is closed when the loader that holds it is dropped, and at no other time. -/
theorem closed_mem_iff (number : Nat) (handle : Handle) : (number, .closed handle) ∈ s.events ↔
    s.drops = true ∧ number = s.before.number ∧ s.before.loader.handle = some handle := by
  cases hop : s.op with
  | load name =>
      have hkept : s.drops = false := by simp [drops, hop]
      simp [hkept, s.closed_notMem_of_path (s.path?_of_load hop)]
  | loadPath path =>
      have hkept : s.drops = false := by simp [drops, hop]
      simp [hkept, s.closed_notMem_of_path (s.path?_of_loadPath hop)]
  | symbol name =>
      have hkept : s.drops = false := by simp [drops, hop]
      have hevents : (number, .closed handle) ∉ s.events := by
        rw [(s.performance_of_symbol hop).2, mem_map_prod]
        exact fun h => closed_notMem_symbol _ _ _ _ h.2
      simp [hkept, hevents]
  | reopen name =>
      cases s.reopenStep hop with
      | replaced _ answer _ events =>
          have hdrops : s.drops = true := by simp [drops, hop, answer]
          simp [hdrops, events, mem_map_prod, closed_mem_closing]
      | kept _ answer _ refused events =>
          have hkept : s.drops = false := by simp [drops, hop, answer]
          have hevents : (number, .closed handle) ∉ s.events := by
            rw [events, mem_map_prod]
            intro h
            obtain ⟨_, hrefusal⟩ := refused _ h.2
            cases hrefusal
          simp [hkept, hevents]
  | drop =>
      have hdrops : s.drops = true := by simp [drops, hop]
      rw [(s.performance_of_drop hop).2, mem_map_prod, closed_mem_closing]
      simp [hdrops]

end Step

theorem Place.history_after (p : Place) (ops : List Operation) : (p.after ops).linker.history =
    p.linker.history ++ (p.events ops).map (·.2.call) := by
  induction ops generalizing p with
  | nil => exact (List.append_nil _).symm
  | cons op ops ih =>
      have hrest := ih (Step.after ⟨p, op⟩)
      rw [Step.history_after, List.append_assoc, ← List.map_append] at hrest
      exact hrest

/-- What comes of looking up a symbol. The loader is as before, and at most the library that it
holds is asked. -/
inductive SymbolStep (s : Step) (name : String) : Prop
  | empty (loader : s.before.loader.handle = none)
      (answer : s.answer = .found (.error (.fetchFailed "no model library loaded")))
      (after : s.after = s.before) (events : s.events = [])
  | holding {handle : Handle} {requests : List LinkerEvent}
      (loader : s.before.loader.handle = some handle)
      (after : s.after = { s.before with linker := s.after.linker })
      (asks : ∀ e ∈ requests, e = .asked handle name)
      (events : s.events = requests.map (s.before.number, ·))

theorem Step.symbolStep (s : Step) {name : String} (hop : s.op = .symbol name) :
    SymbolStep s name := by
  obtain ⟨hperformance, hevents⟩ := s.performance_of_symbol hop
  have hafter : s.after = { s.before with linker := s.after.linker } := by
    rw [after, hperformance]
  cases hhandle : s.before.loader.handle with
  | none =>
      rw [symbol_of_empty hhandle] at hperformance hevents
      rw [Linker.since_self] at hevents
      refine .empty hhandle (congrArg Performance.answer hperformance) ?_ hevents
      rw [after, hperformance]
  | some handle =>
      rcases symbol_of_handle hhandle name s.before.linker with hsymbol | hsymbol
      · rw [hsymbol, Linker.since_self] at hevents
        exact .holding hhandle hafter (List.forall_mem_nil _) hevents
      · rw [hsymbol, Linker.since_called] at hevents
        refine .holding hhandle hafter ?_ hevents
        simp [Linker.event]

structure Handled (linker : Linker) (steps : List Step) (place : Place) : Prop where
  isLoaded_iff : place.loader.isLoaded = true ↔ place.loader.path.isSome = true
  /-- The path is that of the library that the loader has opened. -/
  path_iff : ∀ path, place.loader.path = some path ↔
    ∃ handle, .opened path handle ∈ eventsOf place.number (steps.flatMap Step.events)
  unloaded : place.loader.isLoaded = false → place.loader = .empty
  alreadyLoaded : ∀ s ∈ steps, ∀ path, s.op.path? = some path →
    s.before.loader.isLoaded = true →
      s.performance = ⟨.loaded (.error .alreadyLoaded), s.before, []⟩
  /-- Whether a load succeeds is up to the linker, however many have failed before. -/
  loads : ∀ s ∈ steps, ∀ path, s.op.path? = some path →
    s.before.loader.isLoaded = false → LoadStep s path
  symbols : ∀ s ∈ steps, ∀ name, s.op = .symbol name → SymbolStep s name
  current : Alive place.loader (eventsOf place.number (steps.flatMap Step.events))
  dropped : ∀ n < place.made, n ≠ place.number →
    Dropped (eventsOf n (steps.flatMap Step.events))
  unmade : ∀ n, place.made ≤ n → eventsOf n (steps.flatMap Step.events) = []
  closed : ∀ s ∈ steps, ∀ number handle, (number, .closed handle) ∈ s.events ↔
    s.drops = true ∧ number = s.before.number ∧ s.before.loader.handle = some handle
  reopens : ∀ s ∈ steps, ∀ name, s.op = .reopen name → ReopenStep s (name ++ librarySuffix)
  /-- The events are the calls that the linker got, in this order. -/
  history : place.linker.history =
    linker.history ++ (steps.flatMap Step.events).map (·.2.call)

/-- Whatever is done in a place, in whatever order. -/
theorem handles_kept (linker : Linker) (ops : List Operation) :
    Handled linker ((Place.fresh linker).steps ops) ((Place.fresh linker).after ops) := by
  have hlives := (Lives.fresh linker).after ops
  rw [List.nil_append] at hlives
  have hcurrent := hlives.current
  exact {
    isLoaded_iff := hcurrent.isLoaded_iff
    path_iff := hcurrent.path_iff
    unloaded := hcurrent.eq_empty
    alreadyLoaded s _ _ hop hloaded := s.unchanged_of_loaded hop hloaded
    loads s _ _ hop hunloaded := s.loadStep hop hunloaded
    symbols s _ _ hop := s.symbolStep hop
    current := hcurrent
    dropped := hlives.dropped
    unmade := hlives.unmade
    closed s _ := s.closed_mem_iff
    reopens s _ _ hop := s.reopenStep hop
    history := Place.history_after _ ops }

end ArmSession.LibraryLoader
