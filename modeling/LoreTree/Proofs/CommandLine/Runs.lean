import LoreTree.Proofs.CommandLine.Files
import LoreTree.Proofs.CommandLine.Naming
import LoreTree.Proofs.Document.RoundTrip
/-!
What runs leave behind. Both commands first load and build, which touches no more than the compiled
form of the script; then one prints the lorebook and the other stores it, as the last thing that it
does to files.
-/

namespace LoreTree.CommandLine

variable {α β : Type} {w after : World} {x : Session α} {f : Failure}

def left : EStateM.Result Failure World α → World
  | .ok _ w => w
  | .error _ w => w

def answer : EStateM.Result Failure World α → Except Failure α
  | .ok a _ => .ok a
  | .error f _ => .error f

section Session

theorem bind_of_ok {a : α} (next : α → Session β) (h : x w = .ok a after) :
    (x >>= next) w = next a after := by
  change EStateM.bind x next w = _
  rw [EStateM.bind, h]

theorem bind_of_error (next : α → Session β) (h : x w = .error f after) :
    (x >>= next) w = .error f after := by
  change EStateM.bind x next w = _
  rw [EStateM.bind, h]

theorem reported_of_ok {run : Session Unit} (h : run w = .ok () after) :
    reported run w = .ok 0 after := by
  simp only [reported, bind, EStateM.bind, tryCatch, tryCatchThe, MonadExceptOf.tryCatch,
    EStateM.tryCatch, h]
  rfl

/-- A failure ends a run in the same way whatever the run was; only the log changes after it. -/
theorem reported_of_error {run : Session Unit} (h : run w = .error f after) :
    answer (reported run w) = (if f.message?.isSome then .ok 1 else .error f) ∧
      ∃ log, left (reported run w) = { after with log } := by
  simp only [reported, bind, EStateM.bind, tryCatch, tryCatchThe, MonadExceptOf.tryCatch,
    EStateM.tryCatch, h]
  cases f.message? with
  | none => exact ⟨rfl, _, rfl⟩
  | some m => exact ⟨rfl, _, rfl⟩

/-- A computation that only looks at the world. -/
def Looks (x : Session α) : Prop :=
  ∀ w, left (x w) = w

theorem Looks.bind {next : α → Session β} (first : Looks x) (second : ∀ a, Looks (next a)) :
    Looks (x >>= next) := by
  intro w
  have same := first w
  cases h : x w with
  | ok a after =>
    rw [h] at same
    rw [bind_of_ok next h]
    exact (second a after).trans same
  | error f after =>
    rw [h] at same
    rw [bind_of_error next h]
    exact same

end Session

section Produce

/-- Nothing has changed but the log, and in the files no more than the compiled form of a script. -/
structure Kept (script : Path) (before after : World) : Prop where
  rest : after = { before with files := after.files, log := after.log }
  files : after.files = before.files ∨
    ∃ tag, before.tag = some tag ∧ before.files.Keeps (script.compiled tag) after.files

variable {script : Path} {options : Options}

theorem Kept.refl (script : Path) (w : World) : Kept script w w :=
  ⟨rfl, .inl rfl⟩

end Produce

section Store

/-- How storing a lorebook ends. A lorebook that is not stored has changed no file, unless only its
beginning could be written or the line that tells of it could not be printed. -/
inductive Stores (script : Path) (options : Options) (l : Lorebook) (before : World) (done : α)
    (r : EStateM.Result Failure World α) : Prop
  | stored {directory : Path} (named : directoryOf options before.environment = .ok directory)
      (answer : answer r = .ok done)
      (wrote : before.files.Wrote (outputFile directory options script) (.text (l.toText layout))
        (left r).files)
  | refused {f : Failure} (silent : f.message? = none) (answer : answer r = .error f)
      (files : (left r).files.file? = before.files.file?)
  | torn {directory : Path} {bytes : Nat}
      (named : directoryOf options before.environment = .ok directory)
      (room : before.files.room (outputFile directory options script) = some bytes)
      (short : bytes < (l.toText layout).utf8ByteSize) (answer : answer r = .error .notWritten)
      (wrote : before.files.Wrote (outputFile directory options script)
        (.cut (l.toText layout) bytes) (left r).files)
  | unreported {directory : Path} (named : directoryOf options before.environment = .ok directory)
      (unprinted : before.prints (builtLine (outputFile directory options script)) = false)
      (answer : answer r = .error .notPrinted)
      (wrote : before.files.Wrote (outputFile directory options script) (.text (l.toText layout))
        (left r).files)

variable {script : Path} {options : Options} {l : Lorebook}

/-- What stored a lorebook goes on to return 0, and what did not fails as before. -/
theorem Stores.reported {run : Session Unit} {v : World}
    (ends : Stores script options l w () (run v)) :
    Stores script options l w 0 (reported run v) := by
  cases h : run v with
  | ok done after =>
    rw [reported_of_ok h]
    rw [h] at ends
    cases ends with
    | stored named _ wrote => exact .stored named rfl wrote
    | refused _ answer => cases answer
    | torn _ _ _ answer => cases answer
    | unreported _ _ answer => cases answer
  | error f after =>
    obtain ⟨ended, log, world⟩ := reported_of_error h
    have files : (left (CommandLine.reported run v)).files = after.files := by rw [world]
    rw [h] at ends
    cases ends with
    | stored _ answer => cases answer
    | refused silent answer same =>
      cases answer
      rw [silent] at ended
      exact .refused silent ended (files ▸ same)
    | torn named room short answer wrote =>
      cases answer
      exact .torn named room short ended (files ▸ wrote)
    | unreported named deaf answer wrote =>
      cases answer
      exact .unreported named deaf ended (files ▸ wrote)

end Store

end LoreTree.CommandLine
