/-!
Tables keyed by names, in the order in which the names were first entered.
-/

set_option autoImplicit false

namespace LoopCapture

/-- A table from names of any type to values that keeps the order of first entry. -/
abbrev Entries (α β : Type) := List (α × β)

namespace Entries

variable {α β : Type} [DecidableEq α]

@[inline]
def get? (entries : Entries α β) (name : α) : Option β :=
  List.lookup name entries

@[inline]
def has (entries : Entries α β) (name : α) : Bool :=
  (entries.get? name).isSome

/-- Gives a name a value. A name that has one keeps its place, a new one comes last. -/
@[specialize]
def put : Entries α β → α → β → Entries α β
  | [], name, value => [(name, value)]
  | (key, old) :: rest, name, value =>
    if key = name then (key, value) :: rest else (key, old) :: put rest name value

def names {α β : Type} (entries : Entries α β) : List α :=
  entries.map Prod.fst

end Entries

end LoopCapture
