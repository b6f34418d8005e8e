/-!
# Journals

What the program does besides giving results is kept as a list of notes in the order in which they
arise.  A computation that takes notes is a value with its notes, and running one computation after
another puts their notes behind each other.

Main results:

- Theorems `Noted.value_bind` and `Noted.notes_bind`: value and notes of one computation after
  another.
-/

namespace PerfRelay

universe u v

/-- The levels of log entries, the gravest first. -/
inductive Level where
  | error
  | warn
  | info
  | debug
  | trace
deriving DecidableEq, Repr

namespace Level

/-- All levels. -/
def all : List Level := [.error, .warn, .info, .debug, .trace]

/-- The name of a level. -/
def name : Level → String
  | .error => "ERROR"
  | .warn => "WARN"
  | .info => "INFO"
  | .debug => "DEBUG"
  | .trace => "TRACE"

end Level

/-- A log entry. -/
structure Entry where
  level : Level
  text : String
deriving DecidableEq, Repr

namespace Entry

/-- An entry about a lasting fault. -/
def error (text : String) : Entry := ⟨.error, text⟩

/-- An entry about something that was put right. -/
def warn (text : String) : Entry := ⟨.warn, text⟩

/-- An entry about the course of things. -/
def info (text : String) : Entry := ⟨.info, text⟩

/-- An entry about details. -/
def debug (text : String) : Entry := ⟨.debug, text⟩

end Entry

/-- A value with the notes that were taken on the way to it. -/
structure Noted (ω : Type u) (α : Type v) where
  value : α
  notes : List ω
deriving Repr

namespace Noted

variable {ω : Type u} {α β : Type v}

instance : Monad (Noted ω) where
  pure a := ⟨a, []⟩
  bind x f := ⟨(f x.value).value, x.notes ++ (f x.value).notes⟩

/-- Takes a note. -/
def note (entry : ω) : Noted ω PUnit := ⟨.unit, [entry]⟩

/-- Takes notes. -/
def noteAll (entries : List ω) : Noted ω PUnit := ⟨.unit, entries⟩

/-- Changes every note by a function. -/
def mapNotes {ω' : Type u} (f : ω → ω') (x : Noted ω α) : Noted ω' α := ⟨x.value, x.notes.map f⟩

@[simp] theorem value_pure (a : α) : (pure a : Noted ω α).value = a := rfl

@[simp] theorem notes_pure (a : α) : (pure a : Noted ω α).notes = [] := rfl

@[simp] theorem value_bind (x : Noted ω α) (f : α → Noted ω β) :
    (x >>= f).value = (f x.value).value := rfl

@[simp] theorem notes_bind (x : Noted ω α) (f : α → Noted ω β) :
    (x >>= f).notes = x.notes ++ (f x.value).notes := rfl

@[simp] theorem value_map (f : α → β) (x : Noted ω α) : (f <$> x).value = f x.value := rfl

@[simp] theorem notes_map (f : α → β) (x : Noted ω α) : (f <$> x).notes = x.notes :=
  List.append_nil _

@[simp] theorem notes_note (entry : ω) : (note entry).notes = [entry] := rfl

@[simp] theorem value_mapNotes {ω' : Type u} (f : ω → ω') (x : Noted ω α) :
    (x.mapNotes f).value = x.value := rfl

@[simp] theorem notes_mapNotes {ω' : Type u} (f : ω → ω') (x : Noted ω α) :
    (x.mapNotes f).notes = x.notes.map f := rfl

end Noted

end PerfRelay
