import DeclListing.Symbol.Record

/-! Numeric records and symbol information. Writing a record and reading it again
gives what was written, and only what was written can be read: the records that
belong to a symbol are those that one writes. Which they are is said by the ranges
of their fields, and so is the fault that any other record is refused for. -/
namespace DeclListing.RecordCodec

variable {r : Record} {info : SymbolInfo} {kind : Kind} {field : Int32} {params : UInt16}
  {type : SymbolType} {e : RecordError}

/-- A field that holds the tag of a kind. -/
def IsTag (field : Int32) : Prop :=
  -5 ≤ field.toInt ∧ field.toInt ≤ -1

/-- A field that holds a possible number of parameters. -/
def IsCount (field : Int32) : Prop :=
  0 ≤ field.toInt ∧ field.toInt ≤ 65535

/-- The two fields that only functions have are left unused. -/
def Unused (r : Record) : Prop :=
  r.params.toInt = -1 ∧ r.result.toInt = -1

theorem is_tag_iff : IsTag field ↔ ∃ kind : Kind, field = kind.code := by
  constructor
  · rintro ⟨least, most⟩
    have cases : field.toInt = -5 ∨ field.toInt = -4 ∨ field.toInt = -3 ∨ field.toInt = -2 ∨
        field.toInt = -1 := by omega
    rcases cases with tag | tag | tag | tag | tag
    · exact ⟨.function, Int32.toInt_inj.mp tag⟩
    · exact ⟨.int, Int32.toInt_inj.mp tag⟩
    · exact ⟨.str, Int32.toInt_inj.mp tag⟩
    · exact ⟨.intOrStr, Int32.toInt_inj.mp tag⟩
    · exact ⟨.undefined, Int32.toInt_inj.mp tag⟩
  · rintro ⟨kind, rfl⟩
    cases kind <;> exact ⟨by decide, by decide⟩

theorem no_kind_iff : Kind.ofCode? field = none ↔ ¬ IsTag field := by
  rw [is_tag_iff, Option.eq_none_iff_forall_ne_some, not_exists]
  exact forall_congr' fun kind => not_congr Kind.ofCode?_eq_some_iff

theorem function_tag_iff : field.toInt = -5 ↔ field = Kind.function.code :=
  ⟨fun tag => Int32.toInt_inj.mp tag, fun tag => tag ▸ rfl⟩

theorem unused_iff : Unused r ↔ r.params = notApplicable ∧ r.result = notApplicable := by
  rw [Unused, ← Int32.toInt_inj, ← Int32.toInt_inj]
  rfl

theorem used_iff : ¬ Unused r ↔ r.params ≠ notApplicable ∨ r.result ≠ notApplicable := by
  rw [unused_iff, Decidable.not_and_iff_not_or_not]

private theorem count_to_int (params : UInt16) :
    (Int32.ofNat params.toNat).toInt = params.toNat := by
  have bound := params.toNat_lt
  exact Int32.toInt_ofNat_of_lt (by omega)

theorem is_count_iff : IsCount field ↔ ∃ params : UInt16, field = Int32.ofNat params.toNat := by
  constructor
  · rintro ⟨least, most⟩
    refine ⟨UInt16.ofNat field.toInt.toNat, Int32.toInt_inj.mp ?_⟩
    rw [count_to_int, UInt16.toNat_ofNat']
    omega
  · rintro ⟨params, rfl⟩
    have bound := params.toNat_lt
    rw [IsCount, count_to_int]
    omega

/-- A field is read as the number of parameters that is written so. -/
theorem param_count_iff :
    Record.paramCount? field = some params ↔ field = Int32.ofNat params.toNat := by
  have bound := params.toNat_lt
  rw [Record.paramCount?, ← Int32.toInt_inj, count_to_int]
  split
  · rw [Option.some.injEq, ← UInt16.toNat_inj, UInt16.toNat_ofNat']
    omega
  · simp only [reduceCtorEq, false_iff]
    omega

theorem no_count_iff : Record.paramCount? field = none ↔ ¬ IsCount field := by
  rw [is_count_iff, Option.eq_none_iff_forall_ne_some, not_exists]
  exact forall_congr' fun params => not_congr param_count_iff

/-- The records that belong to a symbol: of a function, with a possible number of
parameters and the tag of a result; of any other kind, with both fields unused. -/
inductive Describes (r : Record) : Prop where
  | function : r.type.toInt = -5 → IsCount r.params → IsTag r.result → Describes r
  | value : -4 ≤ r.type.toInt ∧ r.type.toInt ≤ -1 → Unused r → Describes r

/-- What a record is refused for: the first of its faults. The tag of the kind is
looked at before the other fields, and the number of parameters before the tag of
the result. -/
inductive FirstFault (r : Record) : RecordError → Prop where
  | type : ¬ IsTag r.type → FirstFault r (.unknownType r.type)
  | params : r.type.toInt = -5 → ¬ IsCount r.params → FirstFault r (.invalidParamCount r.params)
  | result : r.type.toInt = -5 → IsCount r.params → ¬ IsTag r.result →
      FirstFault r (.unknownReturnType r.result)
  | unused {kind : Kind} : r.type = kind.code → kind ≠ .function → ¬ Unused r →
      FirstFault r (.unexpectedFunctionData kind r.params r.result)

theorem type_read_back (info : SymbolInfo) : info.toRecord.toType = .ok info.type := by
  obtain ⟨type, intVal, strVal⟩ := info
  cases type with
  | function params result =>
    have count := param_count_iff.mpr (rfl : Int32.ofNat params.toNat = _)
    simp [SymbolInfo.toRecord, Record.toType, SymbolType.kind, count]
  | int | str | intOrStr | undefined => rfl

/-- The record of a symbol is read as what it was written for. -/
theorem info_read_back (info : SymbolInfo) : info.toRecord.toInfo = .ok info := by
  rw [Record.toInfo, type_read_back]
  rfl

/-- A type that is read is the one of the fields. -/
theorem fields_of_type (read : r.toType = .ok type) :
    SymbolInfo.toRecord { type, intVal := r.intVal, strVal := r.strVal } = r := by
  obtain ⟨tag, params, result, intVal, strVal⟩ := r
  unfold Record.toType at read
  split at read
  · cases read
  · rename_i known
    obtain rfl := Kind.ofCode?_eq_some_iff.mp known
    split at read
    · cases read
    · rename_i count
      obtain rfl := param_count_iff.mp count
      split at read
      · cases read
      · rename_i ends
        obtain rfl := Kind.ofCode?_eq_some_iff.mp ends
        cases read
        rfl
  · rename_i kind other known
    obtain rfl := Kind.ofCode?_eq_some_iff.mp known
    split at read
    · cases read
    · rename_i unused
      have unused : params = notApplicable ∧ result = notApplicable := by simpa using unused
      obtain ⟨rfl, rfl⟩ := unused
      cases kind with
      | function => exact absurd rfl other
      | int | str | intOrStr | undefined => cases read; rfl

/-- A record is read as symbol information exactly when it is the one that is
written for it. -/
theorem info_read_iff : r.toInfo = .ok info ↔ info.toRecord = r := by
  constructor
  · intro read
    rw [Record.toInfo] at read
    cases typed : r.toType with
    | error e => simp [typed, Except.map] at read
    | ok type =>
      simp only [typed, Except.map, Except.ok.injEq] at read
      exact read ▸ fields_of_type typed
  · rintro rfl
    exact info_read_back info

/-- The records of symbols are those that are written for symbols. -/
theorem describes_iff : Describes r ↔ ∃ info : SymbolInfo, info.toRecord = r := by
  constructor
  · intro describes
    obtain ⟨tag, params, result, intVal, strVal⟩ := r
    cases describes with
    | function tagged counted ends =>
      obtain rfl := function_tag_iff.mp tagged
      obtain ⟨count, rfl⟩ := is_count_iff.mp counted
      obtain ⟨kind, rfl⟩ := is_tag_iff.mp ends
      exact ⟨{ type := .function count kind, intVal, strVal }, rfl⟩
    | value range unused =>
      obtain ⟨rfl, rfl⟩ := unused_iff.mp unused
      obtain ⟨kind, rfl⟩ := is_tag_iff.mp ⟨by omega, range.2⟩
      cases kind with
      | function => exact absurd (show -4 ≤ Kind.function.code.toInt from range.1) (by decide)
      | int => exact ⟨{ type := .int, intVal, strVal }, rfl⟩
      | str => exact ⟨{ type := .str, intVal, strVal }, rfl⟩
      | intOrStr => exact ⟨{ type := .intOrStr, intVal, strVal }, rfl⟩
      | undefined => exact ⟨{ type := .undefined, intVal, strVal }, rfl⟩
  · rintro ⟨⟨type, intVal, strVal⟩, rfl⟩
    cases type with
    | function params result =>
      exact .function rfl (is_count_iff.mpr ⟨params, rfl⟩) (is_tag_iff.mpr ⟨result, rfl⟩)
    | int | str | intOrStr | undefined =>
      refine .value ?_ ⟨rfl, rfl⟩
      simp only [SymbolInfo.toRecord, SymbolType.kind]
      decide

/-- A record is refused for its first fault. -/
theorem fault_of_refusal (refused : r.toType = .error e) : FirstFault r e := by
  unfold Record.toType at refused
  split at refused
  · rename_i unknown
    cases refused
    exact .type (no_kind_iff.mp unknown)
  · rename_i known
    have tagged := function_tag_iff.mpr (Kind.ofCode?_eq_some_iff.mp known)
    split at refused
    · rename_i uncounted
      cases refused
      exact .params tagged (no_count_iff.mp uncounted)
    · rename_i counted
      split at refused
      · rename_i unknown
        cases refused
        exact .result tagged (is_count_iff.mpr ⟨_, param_count_iff.mp counted⟩)
          (no_kind_iff.mp unknown)
      · cases refused
  · rename_i kind other known
    split at refused
    · rename_i used
      cases refused
      exact .unused (Kind.ofCode?_eq_some_iff.mp known) other (used_iff.mpr used)
    · cases kind <;> cases refused

/-- A record with a first fault is refused for it. -/
theorem refusal_of_fault (fault : FirstFault r e) : r.toType = .error e := by
  unfold Record.toType
  cases fault with
  | type unknown => rw [no_kind_iff.mpr unknown]
  | params tagged uncounted =>
    rw [function_tag_iff.mp tagged, Kind.ofCode?_code, no_count_iff.mpr uncounted]
  | result tagged counted unknown =>
    obtain ⟨params, same⟩ := is_count_iff.mp counted
    rw [function_tag_iff.mp tagged, Kind.ofCode?_code, param_count_iff.mpr same,
      no_kind_iff.mpr unknown]
  | @unused kind tagged other used =>
    rw [tagged, Kind.ofCode?_code]
    cases kind with
    | function => exact absurd rfl other
    | int | str | intOrStr | undefined => exact if_pos (used_iff.mp used)

theorem info_refused_iff : r.toInfo = .error e ↔ FirstFault r e := by
  have typed : r.toInfo = .error e ↔ r.toType = .error e := by
    rw [Record.toInfo]
    cases r.toType <;> simp [Except.map]
  rw [typed]
  exact ⟨fault_of_refusal, refusal_of_fault⟩

/-- Numeric records and symbol information convert into each other. Every symbol
information is read back from its record, and a record is read as a symbol
information exactly when it is the one of it. A record is read exactly when its
fields are in the ranges of a function or of another kind, and otherwise it is
refused for the first field that is not, with what stands there. -/
theorem record_codec_exact (info : SymbolInfo) (r : Record) :
    info.toRecord.toInfo = .ok info ∧
    (r.toInfo = .ok info ↔ info.toRecord = r) ∧
    ((∃ other, r.toInfo = .ok other) ↔ Describes r) ∧
    ∀ e, r.toInfo = .error e ↔ FirstFault r e := by
  refine ⟨info_read_back info, info_read_iff, ?_, fun e => info_refused_iff⟩
  rw [describes_iff]
  exact exists_congr fun other => info_read_iff

end DeclListing.RecordCodec
