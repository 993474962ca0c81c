import AntRelay.Base.Machine
import AntRelay.Trace.Downlink

namespace AntRelay.Trace
open AntRelay.Base AntRelay.Base.Bincode AntRelay.Format

abbrev Attrs := List (String × Recorded)

/-- The layer, with the spans that are open. -/
structure Layer where
  active : Bool
  spans : List (Nat × Span)
  opened : Nat

inductive LayerAction where
  | activate
  | newSpan (metadata : Metadata) (attrs : Attrs)
  | closeSpan (id : Nat)
  | event (scope : List Nat) (metadata : Metadata) (attrs : Attrs)

inductive LayerSeen where
  | opened (id : Nat) (metadata : Metadata) (attrs : Attrs)
  | issued (scope : List Nat) (metadata : Metadata) (attrs : Attrs) (log : Log)
  | panicked

namespace Layer

def default : Layer := ⟨false, [], 0⟩

def lookup (self : Layer) : List Nat → Option (List Span)
  | [] => some []
  | id :: scope => do
      let span ← self.spans.lookup id
      let spans ← self.lookup scope
      pure (span :: spans)

def next (self : Layer) : LayerAction → Option (Layer × List LayerSeen)
  | .activate => some ({ self with active := true }, [])
  | .newSpan metadata attrs =>
      match (onNewSpan metadata attrs : Outcome Empty Span) with
      | .ok span =>
          some ({ self with
            spans := self.spans ++ [(self.opened, span)]
            opened := self.opened + 1 }, [.opened self.opened metadata attrs])
      | _ => some (self, [.panicked])
  | .closeSpan id =>
      some ({ self with spans := self.spans.filter fun open_ => open_.1 != id }, [])
  | .event scope metadata attrs =>
      match self.lookup scope with
      | none => none
      | some spans =>
          match (onEvent self.active spans metadata attrs : Outcome Empty (Option Log)) with
          | .ok (some log) => some (self, [.issued scope metadata attrs log])
          | .ok none => some (self, [])
          | _ => some (self, [.panicked])

def machine : Machine Layer LayerAction LayerSeen := ⟨default, next⟩

end Layer

def cut (text : String) : String :=
  String.ofList (kept text)

def Recorded.value : Recorded → Value
  | .f64 value => .f64 value
  | .i64 value => .i64 value
  | .u64 value => .u64 value
  | .bool value => .bool value
  | .str value | .error value | .debug value => .string (cut value)

def said (attrs : Attrs) (key : String) : Option Value :=
  (attrs.filter fun attr => cut attr.1 == key).getLast?.map fun attr => attr.2.value

def Limits (attrs : Attrs) : Prop :=
  said attrs limitedDownlink = some (.bool true)

def summary : Option Value → List (String × Value)
  | none => []
  | some msg => [("downlink_filtered", .bool true), ("message", msg)]

/-- A record of a log, in one that is limited or not. -/
structure Tells (limited : Prop) (metadata : Metadata) (attrs : Attrs) (data : SpanData) :
    Prop where
  name : data.name = cut metadata.name
  target : data.target = cut metadata.target
  level : data.level = metadata.level.into
  fields : ¬ limited → ∀ key, data.fields.get? key = said attrs key
  entries : limited → data.fields.entries = summary (said attrs "message")

section Records

variable {ε : Type}

theorem truncate_eq_ok {text result : String}
    (h : (truncate text : Outcome ε String) = .ok result) :
    EndsInOneByte text ∧ result = cut text := by
  rw [truncate_eq] at h
  split at h
  · rename_i hends
    cases h
    exact ⟨hends, rfl⟩
  · cases h

theorem said_cons (name : String) (value : Recorded) (attrs : Attrs) (key : String) :
    said ((name, value) :: attrs) key =
      (said attrs key).or (if key = cut name then some value.value else none) := by
  unfold said
  by_cases hkey : cut name = key
  · rw [List.filter_cons_of_pos (by simp [hkey]), List.getLast?_cons, if_pos hkey.symm]
    cases (attrs.filter fun attr => cut attr.1 == key).getLast? with
    | none => rfl
    | some attr => rfl
  · rw [List.filter_cons_of_neg (by simp [hkey]), if_neg (Ne.symm hkey), Option.or_none]

/-- A text that has been cut, or no text. -/
def IsCut : Value → Prop
  | .string text => ∃ whole, EndsInOneByte whole ∧ text = cut whole
  | _ => True

namespace Visitor

theorem record_eq_ok {fields result : Fields} {name : String} {value : Recorded}
    (h : (record fields name value : Outcome ε Fields) = .ok result) :
    result = fields.insert (cut name) value.value ∧ IsCut value.value := by
  have hvalue {v : Value} (h : (recordValue fields name v : Outcome ε Fields) = .ok result) :
      result = fields.insert (cut name) v := by
    unfold recordValue at h
    obtain ⟨key, hkey, hresult⟩ := Outcome.bind_eq_ok.mp h
    obtain ⟨-, rfl⟩ := truncate_eq_ok hkey
    cases hresult
    rfl
  have hstr {text : String} (h : (recordStr fields name text : Outcome ε Fields) = .ok result) :
      result = fields.insert (cut name) (.string (cut text)) ∧ EndsInOneByte text := by
    unfold recordStr at h
    obtain ⟨key, hkey, hrest⟩ := Outcome.bind_eq_ok.mp h
    obtain ⟨-, rfl⟩ := truncate_eq_ok hkey
    obtain ⟨kept, hkept, hresult⟩ := Outcome.bind_eq_ok.mp hrest
    obtain ⟨hends, rfl⟩ := truncate_eq_ok hkept
    cases hresult
    exact ⟨rfl, hends⟩
  cases value with
  | f64 value => exact ⟨hvalue h, trivial⟩
  | i64 value => exact ⟨hvalue h, trivial⟩
  | u64 value => exact ⟨hvalue h, trivial⟩
  | bool value => exact ⟨hvalue h, trivial⟩
  | str text | error text | debug text =>
      obtain ⟨hresult, hends⟩ := hstr h
      exact ⟨hresult, text, hends, rfl⟩

theorem recordAll_eq_ok {fields result : Fields} {attrs : Attrs}
    (h : (recordAll fields attrs : Outcome ε Fields) = .ok result)
    (hcut : ∀ entry ∈ fields.entries, IsCut entry.2) :
    (∀ key, result.get? key = (said attrs key).or (fields.get? key)) ∧
      ∀ entry ∈ result.entries, IsCut entry.2 := by
  induction attrs generalizing fields with
  | nil =>
      cases h
      exact ⟨fun key => (Option.none_or).symm, hcut⟩
  | cons attr attrs ih =>
      obtain ⟨name, value⟩ := attr
      unfold recordAll at h
      obtain ⟨more, hmore, hrest⟩ := Outcome.bind_eq_ok.mp h
      obtain ⟨rfl, hvalue⟩ := record_eq_ok hmore
      have hcut' : ∀ entry ∈ (fields.insert (cut name) value.value).entries, IsCut entry.2 := by
        intro entry hentry
        rcases SortedMap.mem_insert hentry with rfl | hold
        · exact hvalue
        · exact hcut entry hold
      obtain ⟨hget, hall⟩ := ih hrest hcut'
      refine ⟨fun key => ?_, hall⟩
      rw [hget, said_cons, Option.or_assoc, SortedMap.get?_insert]
      split <;> rfl

end Visitor

theorem recordAll_empty {fields : Fields} {attrs : Attrs}
    (h : (Visitor.recordAll .empty attrs : Outcome ε Fields) = .ok fields) :
    (∀ key, fields.get? key = said attrs key) ∧ ∀ entry ∈ fields.entries, IsCut entry.2 := by
  obtain ⟨hget, hcut⟩ := Visitor.recordAll_eq_ok h (by simp [SortedMap.empty])
  refine ⟨fun key => ?_, hcut⟩
  rw [hget, SortedMap.get?_empty, Option.or_none]

theorem isLimited_iff (fields : Fields) :
    isLimited fields = true ↔ fields.get? limitedDownlink = some (.bool true) := by
  unfold isLimited
  split
  · rename_i hget
    exact iff_of_true rfl hget
  · rename_i hother
    exact iff_of_false Bool.false_ne_true hother

theorem entries_limit (fields : Fields) :
    (limit fields).entries = summary (fields.get? "message") := by
  unfold limit
  split
  · rename_i msg hmsg
    rw [hmsg]
    have hlt : "downlink_filtered" < "message" := by decide
    unfold summary SortedMap.insert SortedMap.empty
    simp only [List.filter_nil, List.nil_append, List.filter_cons, hlt, hlt.asymm, decide_true,
      decide_false, ↓reduceIte, Bool.false_eq_true]
  · rename_i hmsg
    rw [hmsg]
    rfl

theorem recordSpan_eq_ok {limited : Bool} {fields : Fields} {metadata : Metadata}
    {data : SpanData}
    (h : (recordSpan limited fields metadata.name metadata : Outcome ε SpanData) = .ok data) :
    Cuttable metadata.texts ∧
      data = ⟨cut metadata.name, cut metadata.target,
        if limited then limit fields else fields, metadata.level.into⟩ := by
  unfold recordSpan at h
  obtain ⟨target, htarget, hrest⟩ := Outcome.bind_eq_ok.mp h
  obtain ⟨name, hname, hdata⟩ := Outcome.bind_eq_ok.mp hrest
  obtain ⟨htargetEnds, rfl⟩ := truncate_eq_ok htarget
  obtain ⟨hnameEnds, rfl⟩ := truncate_eq_ok hname
  cases hdata
  exact ⟨by simp [Cuttable, Metadata.texts, htargetEnds, hnameEnds], rfl⟩

end Records

section Lengths

theorem utf8ByteSize_cut {text : String} (h : EndsInOneByte text) :
    (cut text).utf8ByteSize ≤ 253 := by
  unfold cut
  rw [utf8ByteSize_ofList]
  have hlength : (kept text).length ≤ 64 := by
    unfold kept
    exact List.length_take_le _ _
  rcases List.eq_nil_or_concat (kept text) with hnil | ⟨front, c, hkept⟩
  · rw [hnil]
    exact Nat.zero_le _
  · rw [List.concat_eq_append] at hkept
    have hlast : c.utf8Size = 1 := h c (by rw [hkept, List.getLast?_concat]; rfl)
    have hfront := utf8Length_le front
    rw [hkept, List.length_append, List.length_singleton] at hlength
    rw [hkept, utf8Length_append, utf8Length_singleton, hlast]
    omega

theorem string_write_length (text : String) :
    (Codec.string.write text).length = 8 + text.utf8ByteSize := by
  change (writeLength text.utf8ByteSize ++ text.toByteArray.data.toList).length = _
  rw [List.length_append, writeLength_length]
  rfl

theorem value_write_length {value : Value} (h : IsCut value) :
    (Value.codec.write value).length ≤ 265 := by
  cases value with
  | string text =>
      obtain ⟨whole, hends, rfl⟩ := h
      have hsize := utf8ByteSize_cut hends
      change (writeVariant 0 ++ Codec.string.write (cut whole)).length ≤ 265
      rw [List.length_append, writeVariant_length, string_write_length]
      omega
  | u64 value | i64 value | f64 value =>
      change (writeVariant _ ++ natToLE 8 _).length ≤ 265
      rw [List.length_append, writeVariant_length, natToLE_length]
      omega
  | bool value =>
      change (writeVariant 4 ++ Codec.u8.write _).length ≤ 265
      rw [List.length_append, writeVariant_length, Codec.u8_write]
      exact Nat.le_of_ble_eq_true rfl

theorem level_write_length (level : Level) : (Level.codec.write level).length = 4 :=
  writeVariant_length _

theorem summary_write_length {msg : Option Value} (h : ∀ value ∈ msg, IsCut value) :
    ((summary msg).flatMap (Codec.string.prod Value.codec).write).length ≤ 310 := by
  cases msg with
  | none => exact Nat.zero_le _
  | some value =>
      have hvalue := value_write_length (h value rfl)
      change ((Codec.string.write "downlink_filtered" ++ Value.codec.write (.bool true)) ++
        ((Codec.string.write "message" ++ Value.codec.write value) ++ [])).length ≤ 310
      have hfiltered : (Codec.string.write "downlink_filtered").length = 25 :=
        string_write_length _
      have hmessage : (Codec.string.write "message").length = 15 := string_write_length _
      have htrue : (Value.codec.write (.bool true)).length = 5 := rfl
      simp only [List.length_append, List.length_nil, hfiltered, hmessage, htrue]
      omega

theorem span_write_length (data : SpanData) :
    (SpanData.codec.write data).length =
      28 + data.name.utf8ByteSize + data.target.utf8ByteSize +
        (data.fields.entries.flatMap (Codec.string.prod Value.codec).write).length := by
  change (Codec.string.write data.name ++ (Codec.string.write data.target ++
    ((writeLength data.fields.entries.length ++ data.fields.entries.flatMap _) ++
      Level.codec.write data.level))).length = _
  simp only [List.length_append, string_write_length, writeLength_length, level_write_length]
  omega

theorem limited_write_length {fields : Fields} {metadata : Metadata} {data : SpanData}
    (hdata : (recordSpan true fields metadata.name metadata : Outcome Empty SpanData) = .ok data)
    (hcut : ∀ entry ∈ fields.entries, IsCut entry.2) :
    (SpanData.codec.write data).length ≤ 844 := by
  obtain ⟨htexts, rfl⟩ := recordSpan_eq_ok hdata
  have hname := utf8ByteSize_cut (htexts metadata.name (by simp [Metadata.texts]))
  have htarget := utf8ByteSize_cut (htexts metadata.target (by simp [Metadata.texts]))
  have hmessage : ∀ value ∈ fields.get? "message", IsCut value :=
    fun value hvalue => hcut _ (SortedMap.mem_of_get? hvalue)
  have hentries := summary_write_length hmessage
  rw [span_write_length]
  simp only [↓reduceIte, entries_limit]
  omega

end Lengths

def OpenedAs (seen : List LayerSeen) (id : Nat) (span : Span) : Prop :=
  ∃ attrs, .opened id span.metadata attrs ∈ seen ∧
    (Visitor.recordAll .empty attrs : Outcome Empty Fields) = .ok span.storage

theorem OpenedAs.append {seen : List LayerSeen} {id : Nat} {span : Span}
    (h : OpenedAs seen id span) (shown : List LayerSeen) : OpenedAs (seen ++ shown) id span := by
  obtain ⟨attrs, hmem, hstored⟩ := h
  exact ⟨attrs, List.mem_append_left shown hmem, hstored⟩

theorem openedAs_of_onNewSpan {seen : List LayerSeen} {id : Nat} {metadata : Metadata}
    {attrs : Attrs} {span : Span}
    (h : (onNewSpan metadata attrs : Outcome Empty Span) = .ok span)
    (hmem : .opened id metadata attrs ∈ seen) : OpenedAs seen id span := by
  unfold onNewSpan at h
  obtain ⟨fields, hfields, hspan⟩ := Outcome.bind_eq_ok.mp h
  cases hspan
  exact ⟨attrs, hmem, hfields⟩

theorem recordScope_eq_ok {R : Nat → Span → Prop} {limited : Bool} {scope : List Nat}
    {spans : List Span} {records : List SpanData}
    (h : (recordScope limited spans : Outcome Empty (List SpanData)) = .ok records)
    (hscope : List.Forall₂ R scope spans) :
    List.Forall₂ (fun id data => ∃ span, R id span ∧
      (recordSpan limited span.storage span.metadata.name span.metadata :
        Outcome Empty SpanData) = .ok data) scope records := by
  induction hscope generalizing records with
  | nil =>
      cases h
      exact .nil
  | @cons id span scope spans hspan hspans ih =>
      unfold recordScope at h
      obtain ⟨data, hdata, hrest⟩ := Outcome.bind_eq_ok.mp h
      obtain ⟨rest, hrecords, hall⟩ := Outcome.bind_eq_ok.mp hrest
      cases hall
      exact .cons ⟨span, hspan, hdata⟩ (ih hrecords)

theorem onEvent_eq_ok {active : Bool} {spans : List Span} {metadata : Metadata} {attrs : Attrs}
    {log : Log}
    (h : (onEvent active spans metadata attrs : Outcome Empty (Option Log)) = .ok (some log)) :
    ∃ fields records last,
      (Visitor.recordAll .empty attrs : Outcome Empty Fields) = .ok fields ∧
      (recordScope (isLimited fields) spans : Outcome Empty (List SpanData)) = .ok records ∧
      (recordSpan (isLimited fields) fields metadata.name metadata : Outcome Empty SpanData) =
        .ok last ∧ log = ⟨records ++ [last]⟩ := by
  unfold onEvent at h
  split at h
  · cases h
  · obtain ⟨fields, hfields, hrest⟩ := Outcome.bind_eq_ok.mp h
    obtain ⟨records, hrecords, hlast⟩ := Outcome.bind_eq_ok.mp hrest
    obtain ⟨last, hspan, hlog⟩ := Outcome.bind_eq_ok.mp hlast
    cases hlog
    exact ⟨fields, records, last, hfields, hrecords, hspan, rfl⟩

theorem tells_of_recordSpan {limited : Prop} {isLimited : Bool} {metadata : Metadata}
    {attrs : Attrs} {fields : Fields} {data : SpanData} (hlimited : isLimited = true ↔ limited)
    (hget : ∀ key, fields.get? key = said attrs key)
    (h : (recordSpan isLimited fields metadata.name metadata : Outcome Empty SpanData) =
      .ok data) : Tells limited metadata attrs data := by
  obtain ⟨-, rfl⟩ := recordSpan_eq_ok h
  refine ⟨rfl, rfl, rfl, ?_, ?_⟩
  · intro hnot key
    rw [if_neg (fun h => hnot (hlimited.mp h))]
    exact hget key
  · intro hlimits
    rw [if_pos (hlimited.mpr hlimits), entries_limit, hget]

structure Logging (s : Layer) (seen : List LayerSeen) : Prop where
  spans : ∀ entry ∈ s.spans, OpenedAs seen entry.1 entry.2
  logs : ∀ scope metadata attrs log, .issued scope metadata attrs log ∈ seen →
    ∃ active spans, List.Forall₂ (OpenedAs seen) scope spans ∧
      (onEvent active spans metadata attrs : Outcome Empty (Option Log)) = .ok (some log)

section Logging

variable {s s' : Layer} {a : LayerAction} {seen shown : List LayerSeen}

theorem Layer.mem_of_lookup {scope : List Nat} {spans : List Span}
    (h : s.lookup scope = some spans) :
    List.Forall₂ (fun id span => (id, span) ∈ s.spans) scope spans := by
  induction scope generalizing spans with
  | nil =>
      cases h
      exact .nil
  | cons id scope ih =>
      unfold Layer.lookup at h
      obtain ⟨span, hspan, hrest⟩ := Option.bind_eq_some_iff.mp h
      obtain ⟨rest, hscope, hall⟩ := Option.bind_eq_some_iff.mp hrest
      cases hall
      obtain ⟨before, after, hsplit, -⟩ := List.lookup_eq_some_iff.mp hspan
      exact .cons (by simp [hsplit]) (ih hscope)

theorem Logging.quiet (h : Logging s seen)
    (hspans : ∀ entry ∈ s'.spans, entry ∈ s.spans ∨ OpenedAs (seen ++ shown) entry.1 entry.2)
    (hshown : ∀ scope metadata attrs log, .issued scope metadata attrs log ∉ shown) :
    Logging s' (seen ++ shown) where
  spans := by
    intro entry hentry
    rcases hspans entry hentry with hold | hnew
    · exact (h.spans entry hold).append shown
    · exact hnew
  logs := by
    intro scope metadata attrs log hmem
    rcases List.mem_append.mp hmem with hold | hnew
    · obtain ⟨active, spans, hscope, hevent⟩ := h.logs scope metadata attrs log hold
      exact ⟨active, spans, hscope.imp fun id span hspan => hspan.append shown, hevent⟩
    · exact absurd hnew (hshown scope metadata attrs log)

theorem Logging.next (h : Logging s seen) (hnext : s.next a = some (s', shown)) :
    Logging s' (seen ++ shown) := by
  cases a with
  | activate =>
      cases hnext
      exact h.quiet (fun entry hentry => .inl hentry) (by simp)
  | newSpan metadata attrs =>
      simp only [Layer.next] at hnext
      split at hnext
      · rename_i span hspan
        cases hnext
        apply h.quiet _ (by simp)
        intro entry hentry
        rcases List.mem_append.mp hentry with hold | hnew
        · exact .inl hold
        · rw [List.mem_singleton.mp hnew]
          exact .inr (openedAs_of_onNewSpan hspan (by simp))
      · cases hnext
        exact h.quiet (fun entry hentry => .inl hentry) (by simp)
  | closeSpan id =>
      cases hnext
      exact h.quiet (fun entry hentry => .inl (List.mem_filter.mp hentry).1) (by simp)
  | event scope metadata attrs =>
      simp only [Layer.next] at hnext
      split at hnext
      · cases hnext
      · rename_i spans hlookup
        split at hnext
        · rename_i log hevent
          cases hnext
          have hscope := (Layer.mem_of_lookup hlookup).imp fun id span hmem =>
            h.spans (id, span) hmem
          refine ⟨fun entry hentry => (h.spans entry hentry).append _, ?_⟩
          intro scope' metadata' attrs' log' hmem
          rcases List.mem_append.mp hmem with hold | hnew
          · obtain ⟨active, spans', hscope', hevent'⟩ := h.logs scope' metadata' attrs' log' hold
            exact ⟨active, spans', hscope'.imp fun id span hspan => hspan.append _, hevent'⟩
          · cases List.mem_singleton.mp hnew
            exact ⟨s.active, spans, hscope.imp fun id span hspan => hspan.append _, hevent⟩
        · cases hnext
          exact h.quiet (fun entry hentry => .inl hentry) (by simp)
        · cases hnext
          exact h.quiet (fun entry hentry => .inl hentry) (by simp)

theorem logging_of_run {visits : List (Visit Layer LayerAction LayerSeen)}
    (hrun : Layer.machine.Run visits s seen) : Logging s seen := by
  apply (hrun.always Logging ⟨by simp [Layer.machine, Layer.default], by simp⟩ _).1
  intro s seen a s' shown h hnext
  exact h.next hnext

end Logging

section Logs

variable {visits : List (Visit Layer LayerAction LayerSeen)} {s : Layer} {seen : List LayerSeen}
  {scope : List Nat} {metadata : Metadata} {attrs : Attrs} {log : Log}

/-- A log tells of each span of its event, outermost first, and of the event
itself: the names cut and the value recorded last under each cut name, or the
message alone when the last value under `limit_downlink` is true. -/
theorem logs_tell_their_spans (hrun : Layer.machine.Run visits s seen)
    (hmem : .issued scope metadata attrs log ∈ seen) :
    ∃ records last, log.spans = records ++ [last] ∧
      List.Forall₂ (fun id data => ∃ opening recorded, .opened id opening recorded ∈ seen ∧
        Tells (Limits attrs) opening recorded data) scope records ∧
      Tells (Limits attrs) metadata attrs last := by
  obtain ⟨active, spans, hscope, hevent⟩ := (logging_of_run hrun).logs _ _ _ _ hmem
  obtain ⟨fields, records, last, hfields, hrecords, hlast, rfl⟩ := onEvent_eq_ok hevent
  obtain ⟨hget, -⟩ := recordAll_empty hfields
  have hlimited : isLimited fields = true ↔ Limits attrs := by
    rw [isLimited_iff, hget]
    rfl
  refine ⟨records, last, rfl, ?_, tells_of_recordSpan hlimited hget hlast⟩
  apply (recordScope_eq_ok hrecords hscope).imp
  rintro id data ⟨span, ⟨recorded, hopened, hstored⟩, hdata⟩
  exact ⟨span.metadata, recorded, hopened,
    tells_of_recordSpan hlimited (recordAll_empty hstored).1 hdata⟩

/-- A limited log takes at most 844 bytes for the event and for each span it
happens in. -/
theorem limited_logs_are_small {crc : Checksum} (hrun : Layer.machine.Run visits s seen)
    (hmem : .issued scope metadata attrs log ∈ seen) (hlimits : Limits attrs) :
    (serialize Downlink.codec (.log log : Downlink crc)).length ≤
      12 + 844 * (scope.length + 1) := by
  obtain ⟨active, spans, hscope, hevent⟩ := (logging_of_run hrun).logs _ _ _ _ hmem
  obtain ⟨fields, records, last, hfields, hrecords, hlast, rfl⟩ := onEvent_eq_ok hevent
  obtain ⟨hget, hcut⟩ := recordAll_empty hfields
  have hlimited : isLimited fields = true := by
    rw [isLimited_iff, hget]
    exact hlimits
  rw [hlimited] at hrecords hlast
  have hlastLength := limited_write_length hlast hcut
  have hlengths : (records.flatMap SpanData.codec.write).length ≤ 844 * scope.length := by
    have hall := recordScope_eq_ok hrecords hscope
    clear hmem hevent hscope hrecords
    induction hall with
    | nil => exact Nat.le_refl 0
    | @cons id data scope records hdata _ ih =>
        obtain ⟨span, ⟨recorded, -, hstored⟩, hspan⟩ := hdata
        have hlength := limited_write_length hspan (recordAll_empty hstored).2
        rw [List.flatMap_cons, List.length_append, List.length_cons]
        omega
  change (writeVariant 0 ++ (writeLength _ ++
    (records ++ [last]).flatMap SpanData.codec.write)).length ≤ _
  rw [List.length_append, List.length_append, writeVariant_length, writeLength_length,
    List.flatMap_append, List.length_append, List.flatMap_singleton]
  omega

end Logs

section Traced

def tracedSpan : Metadata := ⟨"handle", "runtime", .info⟩

def tracedEvent : Metadata := ⟨"event", "runtime", .info⟩

theorem traced_run : ∃ visits s seen log,
    Layer.machine.Run visits s seen ∧
      .opened 0 tracedSpan [("message", .debug "00ff")] ∈ seen ∧
      .issued [0] tracedEvent [("limit_downlink", .bool true)] log ∈ seen := by
  obtain ⟨span, hspan⟩ : (onNewSpan tracedSpan [("message", .debug "00ff")] :
      Outcome Empty Span).Returns := by
    rw [onNewSpan_returns]
    simp only [List.forall_mem_singleton, Recorded.texts, Cuttable]
    decide
  have hstored : span.metadata = tracedSpan := by
    unfold onNewSpan at hspan
    obtain ⟨fields, -, hpure⟩ := Outcome.bind_eq_ok.mp hspan
    cases hpure
    rfl
  obtain ⟨result, hevent⟩ : (onEvent true [span] tracedEvent [("limit_downlink", .bool true)] :
      Outcome Empty (Option Log)).Returns := by
    rw [onEvent_returns]
    simp only [List.forall_mem_singleton, Recorded.texts, Cuttable, Metadata.texts, hstored]
    decide
  obtain ⟨log, rfl⟩ : ∃ log, result = some log := by
    unfold onEvent at hevent
    obtain ⟨_, -, hrest⟩ := Outcome.bind_eq_ok.mp hevent
    obtain ⟨_, -, hlast⟩ := Outcome.bind_eq_ok.mp hrest
    obtain ⟨_, -, hlog⟩ := Outcome.bind_eq_ok.mp hlast
    cases hlog
    exact ⟨_, rfl⟩
  have hactive : Layer.machine.next Layer.machine.init .activate =
      some ({ Layer.default with active := true }, []) := rfl
  have hopened : Layer.machine.next { Layer.default with active := true }
      (.newSpan tracedSpan [("message", .debug "00ff")]) =
        some (⟨true, [(0, span)], 1⟩, [.opened 0 tracedSpan [("message", .debug "00ff")]]) := by
    simp only [Layer.machine, Layer.next, hspan]
    rfl
  have hissued : Layer.machine.next ⟨true, [(0, span)], 1⟩
      (.event [0] tracedEvent [("limit_downlink", .bool true)]) =
        some (⟨true, [(0, span)], 1⟩,
          [.issued [0] tracedEvent [("limit_downlink", .bool true)] log]) := by
    have hlookup : Layer.lookup ⟨true, [(0, span)], 1⟩ [0] = some [span] := rfl
    simp only [Layer.machine, Layer.next, hlookup, hevent]
  have hrun := ((Machine.Run.start.step hactive).step hopened).step hissued
  exact ⟨_, _, _, log, hrun, by simp, by simp⟩

theorem limits_traced : Limits [("limit_downlink", .bool true)] := by
  have hcut : limitedDownlink = cut "limit_downlink" := by decide
  rw [Limits, said_cons, if_pos hcut, said, List.filter_nil]
  rfl

theorem logs_tell_their_spans_traced : ∃ log : Log, ∃ records last,
    log.spans = records ++ [last] ∧ records.length = 1 ∧
      Tells (Limits [("limit_downlink", .bool true)]) tracedEvent
        [("limit_downlink", .bool true)] last := by
  obtain ⟨visits, s, seen, log, hrun, -, hissued⟩ := traced_run
  obtain ⟨records, last, hspans, hscope, hlast⟩ := logs_tell_their_spans hrun hissued
  exact ⟨log, records, last, hspans, hscope.length_eq.symm, hlast⟩

theorem limited_logs_are_small_traced : ∃ log : Log,
    (serialize Downlink.codec (.log log : Downlink (StandardCRC crc8Smbus))).length ≤
      12 + 844 * (1 + 1) := by
  obtain ⟨visits, s, seen, log, hrun, -, hissued⟩ := traced_run
  let downlink : Downlink (StandardCRC crc8Smbus) := .log log
  have hsmall : (serialize Downlink.codec downlink).length ≤ _ :=
    limited_logs_are_small hrun hissued limits_traced
  rw [List.length_singleton] at hsmall
  exact ⟨log, hsmall⟩

end Traced

end AntRelay.Trace
