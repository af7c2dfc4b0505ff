import Mathlib

/-!
# Data and digests

Data as it is serialized and hashed, with a digest standing for exactly what was hashed: two digests
are equal only if the data under them are. A serialization that lists its fields in order is the
list of them.
-/

namespace Kit

inductive Data
  | text (s : String)
  | number (n : Nat)
  | nil
  | cons (first rest : Data)
  | hash (of : Data)
  deriving DecidableEq

namespace Data

def list (items : List Data) : Data := items.foldr cons nil

@[simp]
theorem list_nil : list [] = nil := rfl

@[simp]
theorem list_cons (item : Data) (items : List Data) : list (item :: items) = cons item
    (list items) :=
  rfl

end Data

end Kit
