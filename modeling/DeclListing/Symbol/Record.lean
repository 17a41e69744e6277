import DeclListing.Symbol.Info

/-!
The numeric record of a symbol: kinds as tags, and `notApplicable` in the two
fields that only functions have. Every symbol information has a record
(`SymbolInfo.toRecord`); not every record belongs to one, and
`Record.toInfo` names the first fault of those that do not.
-/

namespace DeclListing

/-- Symbol information in five flat fields. -/
structure Record where
  /-- The tag of the symbol's kind. -/
  type : Int32
  /-- The number of parameters of a function. -/
  params : Int32
  /-- The tag of a function's result. -/
  result : Int32
  /-- The integer value. -/
  intVal : Int64
  /-- The string value. -/
  strVal : String
  deriving DecidableEq, Repr

/-- Why a record belongs to no symbol. -/
inductive RecordError where
  | unknownType (tag : Int32)
  | invalidParamCount (count : Int32)
  | unknownReturnType (tag : Int32)
  | unexpectedFunctionData (kind : Kind) (params result : Int32)
  | emptyName
  deriving DecidableEq, Repr

namespace RecordError

/-- The wording of a record error. -/
def message : RecordError → String
  | unknownType tag => "unknown type tag " ++ toString tag.toInt
  | invalidParamCount count =>
    "function declared with invalid parameter count " ++ toString count.toInt
  | unknownReturnType tag =>
    "function declared with unknown return type tag " ++ toString tag.toInt
  | unexpectedFunctionData kind params result =>
    "`" ++ kind.name ++ "` symbol carries function data (num_params = " ++
      toString params.toInt ++ ", return_type = " ++ toString result.toInt ++ ")"
  | emptyName => "symbol name is empty"

end RecordError

/-- What stands in the fields that only functions have. It is also the tag of
`undefined`. -/
def notApplicable : Int32 := -1

namespace Record

/-- The record that stands for an absent name. It is the record of a symbol
declared `undefined` without a value, too. -/
def notFound : Record where
  type := Kind.undefined.code
  params := notApplicable
  result := notApplicable
  intVal := 0
  strVal := ""

/-- The number of parameters in a record field, if it is a possible one. -/
def paramCount? (count : Int32) : Option UInt16 :=
  if 0 ≤ count.toInt ∧ count.toInt ≤ 65535 then some (UInt16.ofNat count.toInt.toNat) else none

/-- The type that a record describes. The kind is settled first; a function
then needs a possible parameter count and a result, in this order, and any
other kind must leave both fields unused. -/
def toType (r : Record) : Except RecordError SymbolType :=
  match Kind.ofCode? r.type with
  | none => .error (.unknownType r.type)
  | some .function =>
    match paramCount? r.params with
    | none => .error (.invalidParamCount r.params)
    | some params =>
      match Kind.ofCode? r.result with
      | none => .error (.unknownReturnType r.result)
      | some result => .ok (.function params result)
  | some kind =>
    if r.params ≠ notApplicable ∨ r.result ≠ notApplicable then
      .error (.unexpectedFunctionData kind r.params r.result)
    else
      match kind with
      | .int => .ok .int
      | .str => .ok .str
      | .intOrStr => .ok .intOrStr
      | _ => .ok .undefined

/-- The symbol information that a record describes. -/
def toInfo (r : Record) : Except RecordError SymbolInfo :=
  r.toType.map fun type => { type, intVal := r.intVal, strVal := r.strVal }

end Record

/-- The numeric record of a symbol. -/
def SymbolInfo.toRecord (info : SymbolInfo) : Record :=
  let (params, result) := match info.type with
    | .function params result => (Int32.ofNat params.toNat, result.code)
    | _ => (notApplicable, notApplicable)
  { type := info.type.kind.code, params, result, intVal := info.intVal, strVal := info.strVal }

end DeclListing
