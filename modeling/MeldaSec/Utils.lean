import MeldaSec.Crates

/-!
# The object identifiers that a delta touches
-/

namespace MeldaSec

variable [Crates]

/-- The identifier of one entry of the `c` member: the first item of an
array, when it is a string. -/
def entryObjectId : Value → Option String
  | .array (.string s :: _) => some s
  | _ => none

/-- `extract_created_and_modified_object_ids`.  Every shape that is not the
expected one is skipped. -/
def extractCreatedAndModifiedObjectIds (data : Bytes) : List String :=
  match Crates.valueFromSlice data with
  | .error _ => []
  | .ok parsed =>
    match parsed with
    | .object entries =>
      match entries.lookup "c" with
      | some (.array arr) => arr.filterMap entryObjectId
      | _ => []
    | _ => []

end MeldaSec
