/-!
The clock of a running program and its pending timers.

Timers are numbered in the order of their requests. The next timer is the one that is due first,
and among those due at the same time the one with the smallest number. The clock moves on to the
time of each timer that is taken. Times are any numbers with an order.
-/

set_option autoImplicit false

namespace LoopCapture

structure Timer (τ α : Type) where
  due : τ
  id : Nat
  action : α

structure Clock (τ α : Type) where
  now : τ
  /-- The number of timers so far. -/
  count : Nat
  /-- The timers that have not been taken yet, in the order of their numbers. -/
  pending : List (Timer τ α)

variable {τ α : Type}

def Timer.precedes [LT τ] [DecidableLT τ] (a b : Timer τ α) : Bool :=
  decide (a.due < b.due) || (!decide (b.due < a.due) && decide (a.id < b.id))

namespace Clock

def start (now : τ) : Clock τ α := ⟨now, 0, []⟩

def later [LT τ] [DecidableLT τ] (a b : τ) : τ := if a < b then b else a

/-- Adds a timer that is due after a delay; a delay below zero counts as zero. The number of the
timer is the count of timers after that. -/
def schedule [Add τ] [OfNat τ 0] [LT τ] [DecidableLT τ] (clock : Clock τ α) (delay : τ)
    (action : α) : Clock τ α :=
  let id := clock.count + 1
  { clock with
    count := id
    pending := clock.pending ++ [⟨clock.now + later delay 0, id, action⟩] }

/-- The first of some timers, and the others. -/
def first? [LT τ] [DecidableLT τ] : List (Timer τ α) → Option (Timer τ α × List (Timer τ α))
  | [] => none
  | timer :: rest =>
    match first? rest with
    | none => some (timer, [])
    | some (best, others) =>
      if best.precedes timer then some (best, timer :: others) else some (timer, rest)

def next? [LT τ] [DecidableLT τ] (clock : Clock τ α) : Option (Timer τ α × Clock τ α) :=
  (first? clock.pending).map fun (timer, rest) =>
    (timer, { clock with now := later clock.now timer.due, pending := rest })

end Clock

end LoopCapture
