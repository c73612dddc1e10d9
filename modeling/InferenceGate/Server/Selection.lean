import InferenceGate.Http.Api
import InferenceGate.Http.Query
import InferenceGate.Text.Integer

/-!
# Pages of a listing

Which page of a listing a query asks for, and how many rows go to a page. Pages are counted from one.
-/

namespace InferenceGate

open Http

/-- A page of a listing and the rows of a page. -/
structure Selection where
  page : Nat
  size : Nat
  deriving DecidableEq

namespace Selection

/-- A positive number of a query, or the usual one where the query has none. -/
def positive (query : Bytes) (name : String) (usual : Nat) : Except ApiError Nat :=
  match formValue? query name with
  | none => .ok usual
  | some raw =>
    match (Text.i64? (Text.trim raw)).filter (0 < ·) with
    | some n => .ok n.toNat
    | none => .error ((ApiError.of .invalidParam (name ++ " must be a positive integer")).withParam name)

/-- What a query selects, given the usual size of a page and the greatest. Both count as one where they are zero. -/
def read (query : Bytes) (usual most : Nat) : Except ApiError Selection :=
  match positive query "page" 1 with
  | .error e => .error e
  | .ok page => (positive query "page_size" (max usual 1)).map fun size => { page, size := min size (max most 1) }

/-- The rows before the page, capped at the greatest unsigned word. -/
def offset (s : Selection) : Nat := mulCapped (s.page - 1) s.size

/-- The selection as shown with a listing of so many rows. -/
def members (s : Selection) (total : Nat) : List (String × Json.Value) :=
  [("page", .ofNat s.page), ("page_size", .ofNat s.size), ("total", .ofNat total)]

end Selection

end InferenceGate
