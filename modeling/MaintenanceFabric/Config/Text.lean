import MaintenanceFabric.Domain.Identity
import MaintenanceFabric.Lib.Words

/-! # Configuration text

    One record a line: a kind, then `key=value` tokens between blanks; what
    follows a `#` is a comment.  Unknown keys, repeated keys and malformed
    values are refused with the number of the line.
-/

namespace MaintenanceFabric

open Lib

/-! ## Numbers and identities -/

def is_digit (c : UInt8) : Bool := decide (48 ≤ c) && decide (c ≤ 57)

/-- Values below this one fit into 64 bits. -/
def u64_limit : Nat := 18446744073709551616

/-- One more digit, unless the value runs over 64 bits. -/
def push_digit (value : Nat) (c : UInt8) : Option Nat :=
  if is_digit c then
    if value > (u64_limit - 1 - (c.toNat - 48)) / 10 then none
    else some (value * 10 + (c.toNat - 48))
  else none

def parse_u64 (t : Text) : Option Nat :=
  if t.isEmpty || decide (t.length > 20) then none else t.foldlM push_digit 0

/-- `narrow<std::uint32_t>`. -/
def narrow_u32 (value : Nat) : Option Nat := if value ≤ 4294967295 then some value else none

def parse_u32 (t : Text) : Option Nat := (parse_u64 t).bind narrow_u32

def TargetKind.all : List TargetKind :=
  [.Unknown, .Link, .Port, .Switch, .Rack, .Pod, .Site, .ControlPlane]

def DomainKind.all : List DomainKind :=
  [.Unknown, .Site, .Pod, .Rack, .Power, .Plane, .Zone, .Custom]

def parse_target_kind (t : Text) : Option TargetKind :=
  TargetKind.all.find? (fun kind => kind.to_string = t)

def parse_domain_kind (t : Text) : Option DomainKind :=
  DomainKind.all.find? (fun kind => kind.to_string = t)

def colon : UInt8 := 58

/-- Split at the first colon; both sides must be there, and the second be a number. -/
def split_prefixed_index (t : Text) : Option (Text × Nat) :=
  let at_colon := t.idxOf colon
  if at_colon = t.length ∨ at_colon = 0 ∨ at_colon + 1 ≥ t.length then none
  else (parse_u32 (t.drop (at_colon + 1))).map (fun index => (t.take at_colon, index))

def parse_target_id (t : Text) : Option TargetId := do
  let (kind_text, index) ← split_prefixed_index t
  let kind ← parse_target_kind kind_text
  if kind = .Unknown then none else some { kind, index }

def parse_domain_id (t : Text) : Option DomainId := do
  let (kind_text, index) ← split_prefixed_index t
  let kind ← parse_domain_kind kind_text
  if kind = .Unknown then none else some { kind, index }

/-! ## Lines -/

structure Token where
  key : Text
  value : Text
  deriving DecidableEq, Repr

structure Line where
  number : Nat := 0
  kind : Text := []
  tokens : List Token := []
  deriving DecidableEq, Repr

def Line.find (line : Line) (name : Text) : Option Text :=
  (line.tokens.find? (fun token => token.key = name)).map Token.value

/-- `std::isspace`: what separates the tokens of a line. -/
def is_space (c : UInt8) : Bool := decide (c = 32) || (decide (9 ≤ c) && decide (c ≤ 13))

/-- The blanks that are cut from the ends of a line. -/
def is_blank (c : UInt8) : Bool := c == 32 || c == 9 || c == 13

def newline : UInt8 := 10
def hash : UInt8 := 35
def equals : UInt8 := 61
def comma : UInt8 := 44

def trim (t : Text) : Text := strip is_blank t

def with_line (line : Nat) (message : Text) : Text :=
  text "line " ++ decimal line ++ text ": " ++ message

def line_error (code : ErrorCode) (line : Nat) (message : Text) : Error :=
  make_error code (with_line line message)

/-- The line without its comment and without the blanks around it. -/
def line_body (raw : Text) : Text :=
  let body := trim raw
  if hash ∈ body then trim (body.takeWhile (· ≠ hash)) else body

def read_token (number : Nat) (tokens : List Token) (token : Text) : Result (List Token) :=
  let at_equals := token.idxOf equals
  if at_equals = token.length ∨ at_equals = 0 ∨ at_equals + 1 ≥ token.length then
    .error (line_error .InvalidArgument number
      (text "token '" ++ token ++ text "' is not key=value"))
  else
    let entry : Token := { key := token.take at_equals, value := token.drop (at_equals + 1) }
    if (tokens.find? (fun token => token.key = entry.key)).isSome then
      .error (line_error .InvalidArgument number
        (text "key '" ++ entry.key ++ text "' is repeated"))
    else .ok (tokens ++ [entry])

/-- The record of a line, if it holds one. -/
def read_line (number : Nat) (raw : Text) : Result (Option Line) :=
  let body := line_body raw
  if body.isEmpty then .ok none
  else do
    let pieces := words is_space body
    let tokens ← pieces.tail.foldlM (read_token number) []
    refuse_if (tokens.length > 64)
      (line_error .LimitExceeded number (text "too many keys on one line"))
    .ok (some { number, kind := pieces.headD [], tokens })

def read_lines : Nat → List Text → Result (List Line)
  | _, [] => .ok []
  | number, raw :: rest => do
      let line ← read_line number raw
      let lines ← read_lines (number + 1) rest
      .ok (line.toList ++ lines)

def tokenize (t : Text) : Result (List Line) := read_lines 1 (t.splitOn newline)

/-! ## Fields -/

def require_known_keys (line : Line) (allowed : List Text) : Status :=
  check_all (fun token : Token => refuse_if (!allowed.contains token.key)
    (line_error .InvalidArgument line.number (text "unknown key '" ++ token.key ++
      text "' for record '" ++ line.kind ++ text "'"))) line.tokens

def require_value (line : Line) (key : Text) : Result Text :=
  match line.find key with
  | none => .error (line_error .InvalidArgument line.number
      (text "missing required key '" ++ key ++ text "'"))
  | some value => .ok value

def parse_bool (line : Line) (value : Text) : Result Bool :=
  if value = text "true" ∨ value = text "1" ∨ value = text "yes" then .ok true
  else if value = text "false" ∨ value = text "0" ∨ value = text "no" then .ok false
  else .error (line_error .InvalidArgument line.number
    (text "value '" ++ value ++ text "' is not a boolean"))

/-- One entry of a list of identities; `noun` is what the messages call one. -/
def read_piece {α : Type} (noun : Text) (parse : Text → Option α) (line : Line) (out : List α)
    (piece : Text) : Result (List α) :=
  if piece.isEmpty then
    .error (line_error .InvalidArgument line.number (noun ++ text " list contains an empty entry"))
  else
    match parse piece with
    | none => .error (line_error .InvalidArgument line.number
        (noun ++ text " '" ++ piece ++ text "' is not a " ++ noun ++ text " id"))
    | some id => .ok (out ++ [id])

/-- The entries between commas, of which there is always one. -/
def parse_list {α : Type} (noun : Text) (parse : Text → Option α) (line : Line) (value : Text) :
    Result (List α) :=
  (value.splitOn comma).foldlM (read_piece noun parse line) []

def parse_target_list (line : Line) (value : Text) : Result (List TargetId) :=
  parse_list (text "target") parse_target_id line value

def parse_domain_list (line : Line) (value : Text) : Result (List DomainId) :=
  parse_list (text "domain") parse_domain_id line value

def parse_u32_value (line : Line) (value : Text) : Result Nat :=
  match parse_u32 value with
  | none => .error (line_error .InvalidArgument line.number
      (text "value '" ++ value ++ text "' is not a number"))
  | some number => .ok number

/-- An optional field that falls back on a default. -/
def optional_value {α : Type} (line : Line) (key : Text) (fallback : α)
    (parse : Text → Result α) : Result α :=
  match line.find key with
  | none => .ok fallback
  | some value => parse value

/-- The value of a parser that has no message of its own. -/
def expect {α : Type} (line : Line) (message : Text) (found : Option α) : Result α :=
  match found with
  | none => .error (line_error .InvalidArgument line.number message)
  | some a => .ok a

@[simp] theorem expect_eq_ok {α : Type} {line : Line} {message : Text} {found : Option α} {a : α} :
    expect line message found = .ok a ↔ found = some a := by
  cases found <;> simp [expect]

/-- What was loaded, counted. -/
structure ParseStats where
  lines : Nat := 0
  records : Nat := 0
  deriving DecidableEq, Repr

/-! ## Rendering -/

def bool_text (b : Bool) : Text := if b then text "true" else text "false"

/-- Pieces with commas between them: the index decides whether one comes first. -/
def comma_list (pieces : List Text) : Text :=
  pieces.zipIdx.flatMap (fun p => (if p.2 ≠ 0 then [comma] else []) ++ p.1)

end MaintenanceFabric
