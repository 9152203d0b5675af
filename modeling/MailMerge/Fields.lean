import MailMerge.Value

/-!
# Field maps

What is known about the fields of one document: the values of field names.
-/

namespace MailMerge

/-- The values of field names, and for which values there is room to show them. -/
structure FieldMap where
  entries : List (Points × Value)
  shows : Value → Bool

namespace FieldMap

/-- The fields with the given values, with room for them all. -/
def of (entries : List (Points × Value)) : FieldMap := ⟨entries, fun _ => true⟩

/-- The value of a field. -/
def value? (fields : FieldMap) (name : Points) : Option Value := fields.entries.lookup name

/-- The text of a value. -/
def text (fields : FieldMap) (v : Value) : Except Value.TextFault Points := v.plain fields.shows

end FieldMap

end MailMerge
