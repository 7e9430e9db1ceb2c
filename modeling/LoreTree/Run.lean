import LoreTree.Phrase
/-!
Computations that report what they do. A run may fail; the events before the failure are kept.
-/

namespace LoreTree

inductive Event
  /-- The keys that an edit was asked to show. -/
  | observed (keys : List Phrase)
  /-- The keys of an entry are compiled. -/
  | entered (name : String) (depth keys : Nat) (strategy : String)
  | finished (records roots : Nat)

/-- A computation that may fail, with the events up to its end or its failure. -/
structure Run (α : Type) where
  events : List Event
  result : Except Failure α

namespace Run

def ofExcept (result : Except Failure α) : Run α :=
  ⟨[], result⟩

def tell (e : Event) : Run Unit :=
  ⟨[e], .ok ()⟩

/-- A failure keeps the events before it and drops what would have come after. -/
def andThen (r : Run α) (next : α → Run β) : Run β :=
  match r.result with
  | .ok a => ⟨r.events ++ (next a).events, (next a).result⟩
  | .error e => ⟨r.events, .error e⟩

instance : Monad Run where
  pure a := ⟨[], .ok a⟩
  bind := andThen

theorem andThen_pure (r : Run α) : r.andThen pure = r := by
  obtain ⟨events, result⟩ := r
  cases result <;> simp [andThen, pure]

theorem andThen_assoc (r : Run α) (f : α → Run β) (g : β → Run γ) :
    (r.andThen f).andThen g = r.andThen fun a => (f a).andThen g := by
  obtain ⟨events, result⟩ := r
  cases result with
  | ok a =>
      simp only [andThen]
      cases (f a).result <;> simp
  | error e => rfl

instance : LawfulMonad Run :=
  LawfulMonad.mk' Run andThen_pure (fun _ _ => rfl) andThen_assoc

instance : MonadLift (Except Failure) Run := ⟨ofExcept⟩

def observed (r : Run α) : List (List Phrase) :=
  r.events.filterMap fun
    | .observed keys => some keys
    | _ => none

end Run

end LoreTree
