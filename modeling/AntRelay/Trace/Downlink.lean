import AntRelay.Base.Text
import AntRelay.Format.Downlink

namespace AntRelay.Trace
open AntRelay.Base AntRelay.Format

/-! The subscriber layer that turns events into downlinked logs. Every name and
every text value of a record is cut after 64 characters, at the byte behind the
first one of the last character: right when that character is one byte long, a
panic when it is longer. -/

variable {ε : Type}

def limitedDownlink : String := "limit_downlink"

def maxStr : Nat := 64

def truncate (s : String) : Outcome ε String :=
  if s.isEmpty then .ok s
  else
    let (idx, _) := ((charIndices s).take maxStr).getLast?.getD (0, Char.ofNat 0)
    sliceTextTo s (idx + 1)

/-- The characters that are to be kept. -/
def kept (s : String) : List Char :=
  s.toList.take maxStr

/-- The last character to be kept, if there is any, takes one byte. -/
def EndsInOneByte (s : String) : Prop :=
  ∀ c ∈ (kept s).getLast?, c.utf8Size = 1

instance (s : String) : Decidable (EndsInOneByte s) :=
  match h : (kept s).getLast? with
  | none => .isTrue (by simp [EndsInOneByte, h])
  | some c => decidable_of_iff (c.utf8Size = 1) (by simp [EndsInOneByte, h])

theorem truncate_eq (s : String) : (truncate s : Outcome ε String) =
    if EndsInOneByte s then .ok (String.ofList (kept s)) else .panicked := by
  rcases List.eq_nil_or_concat (kept s) with hnil | ⟨front, c, hkept⟩
  · have hs : s = "" := by
      rw [kept, List.take_eq_nil_iff, or_iff_right (by decide), String.toList_eq_nil_iff] at hnil
      exact hnil
    subst hs
    rfl
  · rw [List.concat_eq_append] at hkept
    have hs : s = String.ofList (front ++ [c] ++ s.toList.drop maxStr) := by
      rw [← hkept, kept, List.take_append_drop, String.ofList_toList]
    have hne : ¬ s.isEmpty = true := by
      rw [String.isEmpty_iff]
      rintro rfl
      simp [kept] at hkept
    have hlast : EndsInOneByte s ↔ c.utf8Size = 1 := by
      simp [EndsInOneByte, hkept]
    rw [truncate, if_neg hne, charIndices, charIndicesFrom_take, ← kept, hkept,
      charIndicesFrom_concat, List.getLast?_concat]
    simp only [Option.getD_some, Nat.zero_add, hlast]
    rw [← sliceTextTo_within front (s.toList.drop maxStr) c, ← hs]

/-- Text is cut after its first 64 characters exactly when there are none or
the last of them takes one byte. -/
theorem truncate_eq_kept_iff (s : String) :
    (truncate s : Outcome ε String) = .ok (String.ofList (s.toList.take maxStr)) ↔
      ∀ c ∈ (s.toList.take maxStr).getLast?, c.utf8Size = 1 := by
  rw [truncate_eq]
  change (if EndsInOneByte s then _ else _) = Outcome.ok (String.ofList (kept s)) ↔ EndsInOneByte s
  split
  · rename_i hends
    exact iff_of_true rfl hends
  · rename_i hends
    exact iff_of_false nofun hends

/-- One character of two bytes. -/
theorem truncate_two_bytes : (truncate "é" : Outcome Unit String) = .panicked ∧
    (truncate "é" : Outcome Unit String) ≠ .ok (String.ofList ("é".toList.take maxStr)) := by
  have h : (truncate "é" : Outcome Unit String) = .panicked := by decide
  rw [h]
  exact ⟨rfl, nofun⟩

abbrev Fields := SortedMap String Value

inductive Recorded where
  | f64 (value : F64)
  | i64 (value : Int64)
  | u64 (value : UInt64)
  | bool (value : Bool)
  | str (value : String)
  | error (text : String)
  | debug (text : String)

namespace Visitor

def recordValue (fields : Fields) (name : String) (value : Value) : Outcome ε Fields := do
  let key ← truncate name
  pure (fields.insert key value)

def recordF64 (fields : Fields) (name : String) (value : F64) : Outcome ε Fields :=
  recordValue fields name (.f64 value)

def recordI64 (fields : Fields) (name : String) (value : Int64) : Outcome ε Fields :=
  recordValue fields name (.i64 value)

def recordU64 (fields : Fields) (name : String) (value : UInt64) : Outcome ε Fields :=
  recordValue fields name (.u64 value)

def recordBool (fields : Fields) (name : String) (value : Bool) : Outcome ε Fields :=
  recordValue fields name (.bool value)

def recordStr (fields : Fields) (name value : String) : Outcome ε Fields := do
  let key ← truncate name
  let value ← truncate value
  pure (fields.insert key (.string value))

def recordError (fields : Fields) (name text : String) : Outcome ε Fields :=
  recordStr fields name text

def recordDebug (fields : Fields) (name text : String) : Outcome ε Fields :=
  recordStr fields name text

def record (fields : Fields) (name : String) : Recorded → Outcome ε Fields
  | .f64 value => recordF64 fields name value
  | .i64 value => recordI64 fields name value
  | .u64 value => recordU64 fields name value
  | .bool value => recordBool fields name value
  | .str value => recordStr fields name value
  | .error text => recordError fields name text
  | .debug text => recordDebug fields name text

def recordAll : Fields → List (String × Recorded) → Outcome ε Fields
  | fields, [] => pure fields
  | fields, (name, value) :: rest => do
      let fields ← record fields name value
      recordAll fields rest

end Visitor

inductive EventLevel where
  | error
  | warn
  | info
  | debug
  | trace

def EventLevel.into : EventLevel → Level
  | .debug => .debug
  | .warn => .warn
  | .info => .info
  | .trace => .trace
  | .error => .error

structure Metadata where
  name : String
  target : String
  level : EventLevel

structure Span where
  metadata : Metadata
  storage : Fields

def onNewSpan (metadata : Metadata) (attrs : List (String × Recorded)) : Outcome ε Span := do
  let fields ← Visitor.recordAll .empty attrs
  pure ⟨metadata, fields⟩

def limit (fields : Fields) : Fields :=
  match fields.get? "message" with
  | some msg => (SortedMap.empty.insert "message" msg).insert "downlink_filtered" (.bool true)
  | none => .empty

def recordSpan (limited : Bool) (fields : Fields) (name : String) (metadata : Metadata) :
    Outcome ε SpanData := do
  let fields := if limited then limit fields else fields
  let target ← truncate metadata.target
  let name ← truncate name
  pure { target := target, name := name, level := metadata.level.into, fields := fields }

def recordScope (limited : Bool) : List Span → Outcome ε (List SpanData)
  | [] => pure []
  | span :: scope => do
      let data ← recordSpan limited span.storage span.metadata.name span.metadata
      let rest ← recordScope limited scope
      pure (data :: rest)

/-- The event asks for its records to be limited. -/
def isLimited (fields : Fields) : Bool :=
  match fields.get? limitedDownlink with
  | some (.bool true) => true
  | _ => false

/-- An event in the spans of its scope, outermost first; the log it issues. -/
def onEvent (active : Bool) (scope : List Span) (metadata : Metadata)
    (attrs : List (String × Recorded)) : Outcome ε (Option Log) :=
  if !active then pure none
  else do
    let fields ← Visitor.recordAll .empty attrs
    let spans ← recordScope (isLimited fields) scope
    let data ← recordSpan (isLimited fields) fields metadata.name metadata
    pure (some ⟨spans ++ [data]⟩)

def Recorded.texts (name : String) : Recorded → List String
  | .f64 _ | .i64 _ | .u64 _ | .bool _ => [name]
  | .str value | .error value | .debug value => [name, value]

def Metadata.texts (metadata : Metadata) : List String :=
  [metadata.target, metadata.name]

def Cuttable (texts : List String) : Prop :=
  ∀ text ∈ texts, EndsInOneByte text

theorem truncate_returns (s : String) :
    (truncate s : Outcome ε String).Returns ↔ EndsInOneByte s := by
  rw [truncate_eq]
  split
  · rename_i hends
    exact iff_of_true (Outcome.returns_ok _) hends
  · rename_i hends
    exact iff_of_false nofun hends

namespace Visitor

theorem recordValue_returns (fields : Fields) (name : String) (value : Value) :
    (recordValue fields name value : Outcome ε Fields).Returns ↔ Cuttable [name] := by
  rw [recordValue, Outcome.returns_bind_iff fun key => Outcome.returns_pure_iff _,
    truncate_returns]
  simp [Cuttable]

theorem recordStr_returns (fields : Fields) (name value : String) :
    (recordStr fields name value : Outcome ε Fields).Returns ↔ Cuttable [name, value] := by
  rw [recordStr, Outcome.returns_bind_iff fun key => Outcome.returns_bind_iff fun value =>
    Outcome.returns_pure_iff _, truncate_returns, truncate_returns]
  simp [Cuttable]

/-- A field is recorded exactly when its name and its text can be cut. -/
theorem record_returns (fields : Fields) (name : String) (value : Recorded) :
    (record fields name value : Outcome ε Fields).Returns ↔ Cuttable (value.texts name) := by
  cases value with
  | f64 value => exact recordValue_returns fields name (.f64 value)
  | i64 value => exact recordValue_returns fields name (.i64 value)
  | u64 value => exact recordValue_returns fields name (.u64 value)
  | bool value => exact recordValue_returns fields name (.bool value)
  | str value => exact recordStr_returns fields name value
  | error text => exact recordStr_returns fields name text
  | debug text => exact recordStr_returns fields name text

theorem recordAll_returns (fields : Fields) (attrs : List (String × Recorded)) :
    (recordAll fields attrs : Outcome ε Fields).Returns ↔
      ∀ attr ∈ attrs, Cuttable (attr.2.texts attr.1) := by
  induction attrs generalizing fields with
  | nil => exact iff_of_true (Outcome.returns_ok _) (by simp)
  | cons attr attrs ih =>
      rw [recordAll, Outcome.returns_bind_iff ih, record_returns, List.forall_mem_cons]

end Visitor

theorem onNewSpan_returns (metadata : Metadata) (attrs : List (String × Recorded)) :
    (onNewSpan metadata attrs : Outcome ε Span).Returns ↔
      ∀ attr ∈ attrs, Cuttable (attr.2.texts attr.1) := by
  rw [onNewSpan, Outcome.returns_bind_iff fun fields => Outcome.returns_pure_iff _,
    Visitor.recordAll_returns, and_true]

theorem recordSpan_returns (limited : Bool) (fields : Fields) (metadata : Metadata) :
    (recordSpan limited fields metadata.name metadata : Outcome ε SpanData).Returns ↔
      Cuttable metadata.texts := by
  rw [recordSpan, Outcome.returns_bind_iff fun target => Outcome.returns_bind_iff fun name =>
    Outcome.returns_pure_iff _, truncate_returns, truncate_returns]
  simp [Cuttable, Metadata.texts]

theorem recordScope_returns (limited : Bool) (scope : List Span) :
    (recordScope limited scope : Outcome ε (List SpanData)).Returns ↔
      ∀ span ∈ scope, Cuttable span.metadata.texts := by
  induction scope with
  | nil => exact iff_of_true (Outcome.returns_ok _) (by simp)
  | cons span scope ih =>
      rw [recordScope, Outcome.returns_bind_iff fun data => Outcome.returns_bind_iff fun rest =>
        Outcome.returns_pure_iff _, ih, recordSpan_returns, List.forall_mem_cons, and_true]

theorem onEvent_returns (scope : List Span) (metadata : Metadata)
    (attrs : List (String × Recorded)) :
    (onEvent true scope metadata attrs : Outcome ε (Option Log)).Returns ↔
      (∀ attr ∈ attrs, Cuttable (attr.2.texts attr.1)) ∧
        (∀ span ∈ scope, Cuttable span.metadata.texts) ∧ Cuttable metadata.texts := by
  have hspans (fields : Fields) : (do
      let spans ← recordScope (isLimited fields) scope
      let data ← recordSpan (isLimited fields) fields metadata.name metadata
      pure (some ⟨spans ++ [data]⟩) : Outcome ε (Option Log)).Returns ↔
      (∀ span ∈ scope, Cuttable span.metadata.texts) ∧ Cuttable metadata.texts := by
    rw [Outcome.returns_bind_iff fun spans => Outcome.returns_bind_iff fun data =>
      Outcome.returns_pure_iff _, recordScope_returns, recordSpan_returns, and_true]
  rw [onEvent, if_neg (by decide), Outcome.returns_bind_iff hspans, Visitor.recordAll_returns]

end AntRelay.Trace
