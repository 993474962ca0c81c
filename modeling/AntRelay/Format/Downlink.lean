import AntRelay.Format.Serde
import Mathlib.Data.String.Basic

namespace AntRelay.Format

open AntRelay.Base AntRelay.Base.Bincode

/-- A floating-point number, as its bits. -/
structure F64 where
  bits : UInt64
  deriving DecidableEq, Repr

def F64.codec : Codec F64 :=
  Codec.u64.imap F64.mk F64.bits fun _ => rfl

inductive Value where
  | string (elem : String)
  | u64 (elem : UInt64)
  | i64 (elem : Int64)
  | f64 (elem : F64)
  | bool (elem : Bool)

namespace Value

def Addressable : Value → Prop
  | .string elem => elem.utf8ByteSize < 2 ^ 64
  | _ => True

def codec : Codec Value where
  write := fun value =>
    match value with
    | .string elem => writeVariant 0 ++ Codec.string.write elem
    | .u64 elem => writeVariant 1 ++ Codec.u64.write elem
    | .i64 elem => writeVariant 2 ++ Codec.i64.write elem
    | .f64 elem => writeVariant 3 ++ F64.codec.write elem
    | .bool elem => writeVariant 4 ++ Codec.bool.write elem
  read := do
    match ← readVariant with
    | 0 => Value.string <$> Codec.string.read
    | 1 => Value.u64 <$> Codec.u64.read
    | 2 => Value.i64 <$> Codec.i64.read
    | 3 => Value.f64 <$> F64.codec.read
    | 4 => Value.bool <$> Codec.bool.read
    | index => throw (invalidVariant index 5)
  Fits := Addressable
  read_write := by
    intro value h rest
    cases value with
    | string elem =>
        exact Codec.string.run_variant Value.string (by decide) rfl h rest
    | u64 elem =>
        exact Codec.u64.run_variant Value.u64 (by decide) rfl trivial rest
    | i64 elem =>
        exact Codec.i64.run_variant Value.i64 (by decide) rfl trivial rest
    | f64 elem =>
        exact F64.codec.run_variant Value.f64 (by decide) rfl trivial rest
    | bool elem =>
        exact Codec.bool.run_variant Value.bool (by decide) rfl trivial rest

end Value

inductive Level where
  | error
  | warn
  | info
  | debug
  | trace
  | unknown
  deriving DecidableEq, Repr

def Level.codec : Codec Level :=
  .unitEnum [.error, .warn, .info, .debug, .trace, .unknown]
    (by intro level; cases level <;> decide) (by decide)

structure SpanData where
  name : String
  target : String
  fields : SortedMap String Value
  level : Level

namespace SpanData

def Addressable (span : SpanData) : Prop :=
  span.name.utf8ByteSize < 2 ^ 64 ∧ span.target.utf8ByteSize < 2 ^ 64 ∧
    span.fields.entries.length < 2 ^ 64 ∧
    ∀ entry ∈ span.fields.entries, entry.1.utf8ByteSize < 2 ^ 64 ∧ entry.2.Addressable

def codec : Codec SpanData :=
  (Codec.string.prod (Codec.string.prod
    ((Codec.map Codec.string Value.codec).prod Level.codec))).imap
    (fun t => ⟨t.1, t.2.1, t.2.2.1, t.2.2.2⟩)
    (fun s => (s.name, s.target, s.fields, s.level)) fun _ => rfl

theorem codec_fits {span : SpanData} (h : span.Addressable) : codec.Fits span := by
  obtain ⟨hname, htarget, hlength, hfields⟩ := h
  exact ⟨hname, htarget, ⟨hlength, hfields⟩, trivial⟩

end SpanData

structure Log where
  spans : List SpanData

namespace Log

def Addressable (log : Log) : Prop :=
  log.spans.length < 2 ^ 64 ∧ ∀ span ∈ log.spans, span.Addressable

def codec : Codec Log :=
  (Codec.seq SpanData.codec).imap Log.mk Log.spans fun _ => rfl

theorem codec_fits {log : Log} (h : log.Addressable) : codec.Fits log :=
  ⟨h.1, fun span hspan => SpanData.codec_fits (h.2 span hspan)⟩

end Log

inductive Downlink (crc : Checksum) where
  | log (spans : Log)
  | uplinkMirror (bytes : BytesWrap)
  | uplinkInterpreted (msg : Message crc)
  | serialUplink (msg : Message crc)
  | serialDownlink (msg : Message crc)
  | serialUplinkRaw (bytes : BytesWrap)
  | serialDownlinkRaw (bytes : BytesWrap)

namespace Downlink

variable {crc : Checksum}

def Addressable : Downlink crc → Prop
  | .log spans => spans.Addressable
  | .uplinkMirror bytes => bytes.bytes.length < 2 ^ 64
  | .uplinkInterpreted msg => msg.val.payload.bytes.length < 2 ^ 64
  | .serialUplink msg => msg.val.payload.bytes.length < 2 ^ 64
  | .serialDownlink msg => msg.val.payload.bytes.length < 2 ^ 64
  | .serialUplinkRaw bytes => bytes.bytes.length < 2 ^ 64
  | .serialDownlinkRaw bytes => bytes.bytes.length < 2 ^ 64

def codec : Codec (Downlink crc) where
  write := fun downlink =>
    match downlink with
    | .log spans => writeVariant 0 ++ Log.codec.write spans
    | .uplinkMirror bytes => writeVariant 1 ++ BytesWrap.codec.write bytes
    | .uplinkInterpreted msg => writeVariant 2 ++ Message.codec.write msg
    | .serialUplink msg => writeVariant 3 ++ Message.codec.write msg
    | .serialDownlink msg => writeVariant 4 ++ Message.codec.write msg
    | .serialUplinkRaw bytes => writeVariant 5 ++ BytesWrap.codec.write bytes
    | .serialDownlinkRaw bytes => writeVariant 6 ++ BytesWrap.codec.write bytes
  read := do
    match ← readVariant with
    | 0 => Downlink.log <$> Log.codec.read
    | 1 => Downlink.uplinkMirror <$> BytesWrap.codec.read
    | 2 => Downlink.uplinkInterpreted <$> Message.codec.read
    | 3 => Downlink.serialUplink <$> Message.codec.read
    | 4 => Downlink.serialDownlink <$> Message.codec.read
    | 5 => Downlink.serialUplinkRaw <$> BytesWrap.codec.read
    | 6 => Downlink.serialDownlinkRaw <$> BytesWrap.codec.read
    | index => throw (invalidVariant index 7)
  Fits := Addressable
  read_write := by
    intro downlink h rest
    cases downlink with
    | log spans =>
        exact Log.codec.run_variant Downlink.log (by decide) rfl (Log.codec_fits h) rest
    | uplinkMirror bytes =>
        exact BytesWrap.codec.run_variant Downlink.uplinkMirror (by decide) rfl h rest
    | uplinkInterpreted msg =>
        exact Message.codec.run_variant Downlink.uplinkInterpreted (by decide) rfl
          (Message.codec_fits h) rest
    | serialUplink msg =>
        exact Message.codec.run_variant Downlink.serialUplink (by decide) rfl
          (Message.codec_fits h) rest
    | serialDownlink msg =>
        exact Message.codec.run_variant Downlink.serialDownlink (by decide) rfl
          (Message.codec_fits h) rest
    | serialUplinkRaw bytes =>
        exact BytesWrap.codec.run_variant Downlink.serialUplinkRaw (by decide) rfl h rest
    | serialDownlinkRaw bytes =>
        exact BytesWrap.codec.run_variant Downlink.serialDownlinkRaw (by decide) rfl h rest

end Downlink

end AntRelay.Format
