import InferenceGate.Text.Bytes

/-!
# Request targets

The target of a request: a path with a query, an absolute address, or an authority alone. Of it the gateway needs the path and
the query; anything after a number sign is dropped.
-/

namespace InferenceGate.Http

/-- The path of a target and its query. -/
structure Target where
  path : Bytes
  query : Option Bytes
  deriving DecidableEq

namespace Target

/-- The longest target. -/
def maxLength : Nat := 65534

/-- The target of a server as a whole. -/
def root : Target := ⟨[0x2f], none⟩

/-- A target as it is written. -/
def bytes (t : Target) : Bytes :=
  match t.query with
  | some q => t.path ++ 0x3f :: q
  | none => t.path

/-- A byte that may stand in a path; others than ASCII must spell text. -/
def isPathByte (b : UInt8) : Bool :=
  b == 0x21 || b == 0x22 || (0x24 ≤ b && b ≤ 0x3b) || b == 0x3d || (0x40 ≤ b && b ≤ 0x5f) || (0x61 ≤ b && b ≤ 0x7e) ||
    0x80 ≤ b

/-- A byte that may stand in a query; others than ASCII must spell text. -/
def isQueryByte (b : UInt8) : Bool := b == 0x21 || (0x24 ≤ b && b ≤ 0x3b) || b == 0x3d || (0x3f ≤ b && b != 0x7f)

/-- A path and a query. -/
def ofPathAndQuery? (bs : Bytes) : Option Target :=
  let visible := bs.takeWhile (· != 0x23)
  let (path, query) := Bytes.cut 0x3f visible
  if path.all isPathByte && (query.getD []).all isQueryByte && (Bytes.text? visible).isSome then some ⟨path, query⟩ else none

/-- A byte of an authority other than a percent sign: the reserved and unreserved characters of addresses. -/
def isAuthorityByte (b : UInt8) : Bool :=
  Bytes.isDigit b || (0x41 ≤ b && b ≤ 0x5a) || (0x61 ≤ b && b ≤ 0x7a) ||
    [0x3a, 0x5b, 0x5d, 0x40, 0x21, 0x24, 0x26, 0x27, 0x28, 0x29, 0x2a, 0x2b, 0x2c, 0x3b, 0x3d, 0x2d, 0x2e, 0x5f, 0x7e].contains b

/-- What has been seen of an authority. -/
structure AuthorityScan where
  colons : Nat := 0
  opened : Bool := false
  closed : Bool := false
  percent : Bool := false
  endsWithAt : Bool := false

/-- An authority after one more byte. -/
def AuthorityScan.step (s : AuthorityScan) (b : UInt8) : Option AuthorityScan :=
  let s := { s with endsWithAt := false }
  if b == 0x3a then if 8 ≤ s.colons then none else some { s with colons := s.colons + 1 }
  else if b == 0x5b then if s.percent || s.opened then none else some { s with opened := true }
  else if b == 0x5d then
    if !s.opened || s.closed then none else some { s with closed := true, colons := 0, percent := false }
  else if b == 0x40 then some { s with endsWithAt := true, colons := 0, percent := false }
  else if b == 0x25 then some { s with percent := true }
  else if isAuthorityByte b then some s
  else none

/-- A byte that ends an authority. -/
def endsAuthority (b : UInt8) : Bool := b == 0x2f || b == 0x3f || b == 0x23

/-- The authority at the beginning of an address and what follows it. -/
def authority? (bs : Bytes) : Option (Bytes × Bytes) :=
  let name := bs.takeWhile fun b => !endsAuthority b
  match name.foldlM AuthorityScan.step {} with
  | none => none
  | some s =>
    if s.opened != s.closed || 1 < s.colons || s.endsWithAt || s.percent then none
    else some (name, bs.dropWhile fun b => !endsAuthority b)

/-- A byte of a scheme. -/
def isSchemeByte (b : UInt8) : Bool :=
  Bytes.isDigit b || (0x41 ≤ b && b ≤ 0x5a) || (0x61 ≤ b && b ≤ 0x7a) || b == 0x2b || b == 0x2d || b == 0x2e ||
    b == 0x7e

/-- The longest scheme. -/
def maxScheme : Nat := 64

/-- What follows a scheme and its `://`, or nothing where there is no scheme; none where the scheme is too long. -/
def afterScheme? (bs : Bytes) : Option (Option Bytes) :=
  let scheme := bs.takeWhile isSchemeByte
  match Bytes.afterHead? (Bytes.ofText "://") (bs.dropWhile isSchemeByte) with
  | some rest => if maxScheme < scheme.length then none else some (some rest)
  | none => some none

/-- The target that a text of bytes spells. -/
def parse? (bs : Bytes) : Option Target :=
  if maxLength < bs.length then none
  else
    match bs with
    | [] => none
    | [0x2a] => some ⟨[0x2a], none⟩
    | 0x2f :: _ => ofPathAndQuery? bs
    | _ =>
      match afterScheme? bs with
      | none => none
      | some none =>
        match authority? bs with
        | some (_, []) => some ⟨[], none⟩
        | _ => none
      | some (some rest) =>
        match authority? rest with
        | some ([], _) => none
        | some (_, tail) => (ofPathAndQuery? tail).map fun t => if t.path.isEmpty then { t with path := [0x2f] } else t
        | none => none

end Target

end InferenceGate.Http
