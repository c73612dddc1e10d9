import InferenceGate.Text.Blank
import InferenceGate.Text.Bytes

/-!
# Where a call is relayed to

The path and query of a call without the parameter that carries its token, joined to the address of the backend. An address and
a path that both name version 1 of the interface name it once.
-/

namespace InferenceGate.Relay

/-- The name of a pair of a query: what stands before its first equals sign. -/
def pairName (pair : Bytes) : Bytes := (Bytes.cut 0x3d pair).1

/-- The pairs of a query other than the empty ones and those of a name. -/
def keptPairs (name query : Bytes) : List Bytes :=
  (Bytes.splitOn 0x26 query).filter fun pair => !pair.isEmpty && pairName pair != name

/-- Pieces with a separator between them. -/
def joined (sep : UInt8) (pieces : List Bytes) : Bytes := [sep].intercalate pieces

/-- A path and query without the pairs of a name; without any pair left the question mark goes too. -/
def withoutParam (name target : Bytes) : Bytes :=
  match Bytes.cut 0x3f target with
  | (_, none) => target
  | (path, some query) =>
    match keptPairs name query with
    | [] => path
    | pairs => path ++ 0x3f :: joined 0x26 pairs

/-- The parameter that carries a token. -/
def tokenParam : Bytes := Bytes.ofText "token"

/-- The path of version 1 of the interface. -/
def version1 : Bytes := Bytes.ofText "/v1"

/-- A path without the slash at its beginning. -/
def withoutSlash (path : Bytes) : Bytes :=
  match path with
  | 0x2f :: rest => rest
  | _ => path

/-- What follows a base that ends in version 1 when the path begins with it too: nothing, or the rest of the path with its slash or
its question mark. -/
def afterVersion1? (path : Bytes) : Option Bytes :=
  match Bytes.afterHead? (withoutSlash version1) (withoutSlash path) with
  | some [] => some []
  | some (0x2f :: rest) => some (0x2f :: rest)
  | some (0x3f :: rest) => some (0x3f :: rest)
  | _ => none

/-- The address of a path at a base, whatever slashes the base ends in. -/
def join (base path : Bytes) : Bytes :=
  let base := Text.dropEnd (· == 0x2f) base
  match if version1.isSuffixOf base then afterVersion1? path else none with
  | some rest => base ++ rest
  | none => base ++ 0x2f :: withoutSlash path

end InferenceGate.Relay
