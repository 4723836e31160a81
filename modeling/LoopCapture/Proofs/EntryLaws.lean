import LoopCapture.Entries

/-!
Laws of tables keyed by names.
-/

set_option autoImplicit false

namespace LoopCapture

namespace Entries

variable {α β : Type} [DecidableEq α]

@[simp]
theorem get?_nil (name : α) : get? ([] : Entries α β) name = none := rfl

theorem get?_cons (key name : α) (value : β) (rest : Entries α β) :
    get? ((key, value) :: rest) name = if name = key then some value else rest.get? name := by
  by_cases same : name = key
  · simp [get?, same]
  · have differs : (name == key) = false := beq_eq_false_iff_ne.mpr same
    simp [get?, List.lookup_cons, differs, same]

/-- Reading after writing: the written name has the new value, all others keep theirs. -/
theorem get?_put (entries : Entries α β) (name other : α) (value : β) :
    (entries.put name value).get? other = if other = name then some value else entries.get? other := by
  induction entries with
  | nil => simp [put, get?_cons]
  | cons entry rest restIH =>
      obtain ⟨key, old⟩ := entry
      by_cases here : key = name
      · subst here
        by_cases same : other = key <;> simp [put, get?_cons, same]
      · by_cases atKey : other = key
        · subst atKey
          simp [put, get?_cons, here]
        · simp [put, get?_cons, here, atKey, restIH]

/-- A name that has a value keeps its place. -/
theorem names_put {entries : Entries α β} {name : α} (known : entries.has name = true) (value : β) :
    (entries.put name value).names = entries.names := by
  induction entries with
  | nil => cases known
  | cons entry rest restIH =>
      obtain ⟨key, old⟩ := entry
      by_cases here : key = name
      · simp [put, here, names]
      · have later : Entries.has rest name = true := by
          simpa [has, get?_cons, Ne.symm here] using known
        simpa [put, here, names] using restIH later

theorem has_iff (entries : Entries α β) (name : α) :
    entries.has name = true ↔ ∃ value, entries.get? name = some value := by
  simp [has, Option.isSome_iff_exists]

theorem has_eq_false_iff (entries : Entries α β) (name : α) :
    entries.has name = false ↔ entries.get? name = none := by
  simp [has]

end Entries

end LoopCapture
