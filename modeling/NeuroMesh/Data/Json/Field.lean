import NeuroMesh.Data.Json.Lemmas

/-!
This module contains the members of an object whose names may be escaped, and the texts in which the parser
finds no value.
-/

namespace Json

section Stuck

variable (half : Bool)

def Stuck (text : List UInt8) : Prop :=
  ∀ fuel rest, 2 * text.length ≤ fuel → Parser.value half fuel (text ++ rest) = none

end Stuck

structure Field extends Member where
  raw : List UInt8

namespace Field

def written (field : Field) : List UInt8 :=
  0x22 :: (field.raw ++ 0x22 :: 0x3a :: field.text)

def member (field : Field) : List UInt8 × Json :=
  (field.key, field.json)

end Field

def fieldsText (fields : List Field) : List UInt8 :=
  [0x2c].intercalate (fields.map Field.written) ++ [0x7d]

section Fields

variable {half : Bool} {field : Field} {fields : List Field} {texts : List UInt8}

theorem Stuck.parseBytes {text : List UInt8} (h : Stuck true text) : parseBytes text = none := by
  have hvalue := h (2 * text.length + 2) [] (by omega)
  rw [List.append_nil] at hvalue
  unfold Json.parseBytes
  rw [hvalue]
  rfl

end Fields

end Json
