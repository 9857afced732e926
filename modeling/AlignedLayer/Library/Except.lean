/-!
# Computations that may fail

What a sequence of two computations returned or failed with, taken apart.
-/

namespace AlignedLayer

theorem bind_eq_ok {Error α β : Type} {value : Except Error α} {next : α → Except Error β}
    {result : β} :
    (value >>= next) = .ok result ↔ ∃ found, value = .ok found ∧ next found = .ok result := by
  cases value with
  | error error => simp [bind, Except.bind]
  | ok found => simp [bind, Except.bind]

theorem bind_eq_error {Error α β : Type} {value : Except Error α} {next : α → Except Error β}
    {error : Error} :
    (value >>= next) = .error error ↔
      value = .error error ∨ ∃ found, value = .ok found ∧ next found = .error error := by
  cases value with
  | error other => simp [bind, Except.bind]
  | ok found => simp [bind, Except.bind]

theorem mapError_eq_ok {Error Other α : Type} {value : Except Error α} {convert : Error → Other}
    {result : α} : value.mapError convert = .ok result ↔ value = .ok result := by
  cases value with
  | error error =>
      constructor
      · intro succeeded
        cases succeeded
      · intro succeeded
        cases succeeded
  | ok found =>
      constructor
      · intro succeeded
        cases succeeded
        rfl
      · intro succeeded
        cases succeeded
        rfl

end AlignedLayer
