import PinTable.Event

set_option autoImplicit false

namespace PinTable

/-- The result of a computation, or the error that ended it, with the events until then. -/
structure Outcome (ε α : Type) where
  events : List Event
  result : Except ε α

namespace Outcome

variable {ε α β : Type}

def ok (value : α) : Outcome ε α := ⟨[], .ok value⟩

def fail (error : ε) : Outcome ε α := ⟨[], .error error⟩

/-- Goes on with the result; the events of both parts follow each other. -/
def andThen (first : Outcome ε α) (next : α → Outcome ε β) : Outcome ε β :=
  match first.result with
  | .ok value => ⟨first.events ++ (next value).events, (next value).result⟩
  | .error error => ⟨first.events, .error error⟩

def report (event : Event) : Outcome ε Unit := ⟨[event], .ok ()⟩

def reporting (events : List Event) (value : α) : Outcome ε α := ⟨events, .ok value⟩

def ofExcept (result : Except ε α) : Outcome ε α := ⟨[], result⟩

def mapError {δ : Type} (f : ε → δ) (outcome : Outcome ε α) : Outcome δ α :=
  ⟨outcome.events, outcome.result.mapError f⟩

instance : Monad (Outcome ε) where
  pure := ok
  bind := andThen

@[simp] theorem pure_eq_ok (value : α) : (pure value : Outcome ε α) = ok value := rfl

@[simp] theorem bind_eq_andThen (first : Outcome ε α) (next : α → Outcome ε β) :
    (first >>= next) = first.andThen next := rfl

theorem andThen_of_ok (first : Outcome ε α) (next : α → Outcome ε β) (value : α)
    (success : first.result = .ok value) :
    first.andThen next = ⟨first.events ++ (next value).events, (next value).result⟩ := by
  simp only [andThen, success]

theorem andThen_of_error (first : Outcome ε α) (next : α → Outcome ε β) (error : ε)
    (failed : first.result = .error error) :
    first.andThen next = ⟨first.events, .error error⟩ := by
  simp only [andThen, failed]

@[simp] theorem ok_andThen (value : α) (next : α → Outcome ε β) :
    (ok value).andThen next = next value := by
  simp [andThen, ok]

def warnings (outcome : Outcome ε α) : List Warning := Event.warnings outcome.events

def log (outcome : Outcome ε α) : List Record := outcome.events.map Event.record

end Outcome

end PinTable
