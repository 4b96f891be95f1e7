/-
This file holds computations that report events as they go and may fail. A failure keeps the
events that were reported before it and ends the computation, so nothing later is reported.
-/

import OpcodeTable.Event

namespace OpcodeTable

/-- The events of a computation, in order, and what came of it. -/
structure Traced (ε α : Type) where
  events : List Event
  outcome : Except ε α

namespace Traced

variable {ε α β : Type}

instance : Monad (Traced ε) where
  pure value := ⟨[], .ok value⟩
  map change computation := ⟨computation.events, computation.outcome.map change⟩
  bind first next :=
    match first.outcome with
    | .error fault => ⟨first.events, .error fault⟩
    | .ok value =>
      let second := next value
      ⟨first.events ++ second.events, second.outcome⟩

/-- Report events. -/
def report (events : List Event) : Traced ε Unit := ⟨events, .ok ()⟩

/-- A computation that reports nothing. -/
def ofExcept (outcome : Except ε α) : Traced ε α := ⟨[], outcome⟩

/-- Say of a fault where it stands. -/
def mapFault {δ : Type} (place : ε → δ) (computation : Traced ε α) : Traced δ α :=
  ⟨computation.events, computation.outcome.mapError place⟩

/-! ### What a sequence reports -/

theorem mk_ok_bind (events : List Event) (value : α) (next : α → Traced ε β) :
    Traced.mk events (.ok value) >>= next =
      ⟨events ++ (next value).events, (next value).outcome⟩ := rfl

theorem mk_ok_bind_pure (events : List Event) (value : α) (change : α → β) :
    (do return change (← Traced.mk events (.ok value)) : Traced ε β) =
      ⟨events, .ok (change value)⟩ :=
  congrArg (Traced.mk · _) (List.append_nil events)

theorem ofExcept_ok_bind (value : α) (next : α → Traced ε β) :
    ofExcept (.ok value) >>= next = next value := rfl

end Traced

end OpcodeTable
