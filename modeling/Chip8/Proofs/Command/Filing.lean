import Chip8.Command.System

namespace Chip8.Command

/-! What the commands rely on when they call the system they run on. The laws leave open for what
    reasons a call fails, what becomes of a file whose writing fails, and how paths lead to files. -/

section Perform

variable {σ α β : Type} {state : σ}

/-- The answer of an action, and the state that it leaves. -/
def perform (action : StateM σ α) (state : σ) : α × σ :=
  action.run state

@[simp] theorem perform_pure (value : α) : perform (pure value) state = (value, state) := rfl

@[simp] theorem perform_bind (action : StateM σ α) (next : α → StateM σ β) :
    perform (action >>= next) state =
      perform (next (perform action state).1) (perform action state).2 := rfl

end Perform

/-- Paths that lead to a file lead to it still. -/
def LeadStill {σ ι : Type} (leads : σ → Path → Option ι) (before after : σ) : Prop :=
  ∀ path file, leads before path = some file → leads after path = some file

/-- The files of a system, as its calls show them. A file is what paths lead to, and not a path: of
    a file that has several, a change by one of them is a change by all. -/
structure Filing {σ : Type} (system : System (StateM σ)) (ι : Type) where
  leads : σ → Path → Option ι
  holds : σ → ι → Option (List UInt8)
  /-- A device need not keep what is written to it. -/
  device : ι → Prop
  holds_read (path : Path) (state : σ) :
    holds (perform (system.read path) state).2 = holds state
  leads_read (path : Path) (state : σ) :
    LeadStill leads state (perform (system.read path) state).2
  /-- What lies at a path without names is a directory, and cannot be read. -/
  found (path : Path) (state : σ) {bytes : List UInt8} :
    (perform (system.read path) state).1 = .ok bytes →
      path.names ≠ [] ∧
        ∃ file, leads state path = some file ∧ (device file ∨ holds state file = some bytes)
  holds_makeParents (path : Path) (state : σ) :
    holds (perform (system.makeParents path) state).2 = holds state
  leads_makeParents (path : Path) (state : σ) :
    LeadStill leads state (perform (system.makeParents path) state).2
  leads_write (path : Path) (bytes : List UInt8) (state : σ) :
    LeadStill leads state (perform (system.write path bytes) state).2
  /-- Whether it succeeds or fails, writing concerns no other file. -/
  holds_write (path : Path) (bytes : List UInt8) (state : σ) (file : ι) :
    leads (perform (system.write path bytes) state).2 path ≠ some file →
      holds (perform (system.write path bytes) state).2 file = holds state file
  written (path : Path) (bytes : List UInt8) (state : σ) :
    (perform (system.write path bytes) state).1 = .ok () →
      ∃ file, leads (perform (system.write path bytes) state).2 path = some file ∧
        (device file ∨ holds (perform (system.write path bytes) state).2 file = some bytes)

/-- The screen of a system. The only reason for which a path without a null character cannot be
    read is one that the system has. -/
structure Console {σ : Type} (system : System (StateM σ)) where
  shown : σ → String
  shown_read (path : Path) (state : σ) :
    shown (perform (system.read path) state).2 = shown state
  shown_print (text : String) (state : σ) :
    (perform (system.print text) state).1 = .ok () →
      shown (perform (system.print text) state).2 = shown state ++ text
  refused (path : Path) (state : σ) {reason : FileError} :
    '\x00' ∉ path.text.toList → (perform (system.read path) state).1 = .error reason →
      ∃ number text about, reason = .system number text about

end Chip8.Command
