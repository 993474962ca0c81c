import AntRelay.Codec.Cobs
import Mathlib.Data.List.TakeWhile

namespace AntRelay.Runtime
open AntRelay.Base AntRelay.Codec

/-! The framed reader yields a result of a result: the outer one fails when the
port does, the inner one when a frame is malformed. The pipeline of
`RawIO::started` unwraps the outer one. -/

variable {IoError : Type}

abbrev ReadResult (IoError : Type) := Except IoError (Item IoError)

inductive Yielded : ReadResult IoError → Prop where
  | packet (pkt : Bytes) : Yielded (.ok (.ok pkt))
  | protocolError : Yielded (.ok (.error .cobsProtocol))
  | portError (err : IoError) : Yielded (.error err)

/-- The actor as far as the pipeline is concerned: the packets it has issued as
`DownPacket`, and whether its context is stopped. -/
structure RawIO where
  issued : List Bytes
  stopped : Bool
  deriving DecidableEq, Repr

namespace RawIO

def default : RawIO where
  issued := []
  stopped := false

def unwrap (x : ReadResult IoError) : Outcome Empty (Item IoError) :=
  match x with
  | .ok item => .ok item
  | .error _ => .panicked

def handleItem (self : RawIO) (x : Item IoError) : RawIO :=
  match x with
  | .ok pkt => { self with issued := self.issued ++ [pkt] }
  | .error (.io _) => { self with stopped := true }
  | .error .cobsProtocol => self

def read : RawIO → List (ReadResult IoError) → Outcome Empty RawIO
  | self, [] => .ok self
  | self, x :: rest =>
      if self.stopped then .ok self
      else do
        let item ← unwrap x
        read (self.handleItem item) rest

end RawIO

def isIoError : ReadResult IoError → Bool
  | .error _ => true
  | .ok (.error (.io _)) => true
  | .ok (.error .cobsProtocol) => false
  | .ok (.ok _) => false

def packet? : ReadResult IoError → Option Bytes
  | .ok (.ok pkt) => some pkt
  | _ => none

/-- The packets before the first failure of the port are issued in order, the
actor is stopped exactly if there is one, and nothing panics. -/
def SurvivesReads (results : List (ReadResult IoError)) : Prop :=
  RawIO.default.read results = .ok
    ⟨(results.takeWhile fun x => !isIoError x).filterMap packet?, results.any isIoError⟩

namespace RawIO

theorem read_of_port_ok {results : List (ReadResult IoError)} (self : RawIO)
    (hyielded : ∀ x ∈ results, Yielded x) (hport : ∀ x ∈ results, ∃ item, x = .ok item)
    (hself : self.stopped = false) :
    self.read results = .ok { self with issued := self.issued ++ results.filterMap packet? } := by
  induction results generalizing self with
  | nil => simp [read]
  | cons x results ih =>
      rw [List.forall_mem_cons] at hyielded hport
      rw [read, if_neg (by simp [hself])]
      cases hyielded.1 with
      | packet pkt =>
          have hrest := ih (self.handleItem (.ok pkt : Item IoError)) hyielded.2 hport.2 hself
          simp only [unwrap, Outcome.ok_bind]
          rw [hrest]
          simp [handleItem, packet?]
      | protocolError => exact ih self hyielded.2 hport.2 hself
      | portError err =>
          obtain ⟨item, hitem⟩ := hport.1
          cases hitem

theorem read_of_portError {results : List (ReadResult IoError)} (self : RawIO) {err : IoError}
    (hyielded : ∀ x ∈ results, Yielded x) (herr : .error err ∈ results)
    (hself : self.stopped = false) : self.read results = .panicked := by
  induction results generalizing self with
  | nil => cases herr
  | cons x results ih =>
      rw [List.forall_mem_cons] at hyielded
      rw [read, if_neg (by simp [hself])]
      cases hyielded.1 with
      | packet pkt =>
          have hrest : .error err ∈ results := by simpa using herr
          exact ih _ hyielded.2 hrest hself
      | protocolError =>
          have hrest : .error err ∈ results := by simpa using herr
          exact ih self hyielded.2 hrest hself
      | portError err => rfl

end RawIO

/-- The codec itself never fails with an I/O error, so the framed reader yields
nothing but packets and protocol errors while the port is read. -/
theorem framedRead_yielded {cobs : CobsCrate} {chunks : List Bytes} {src left : Bytes}
    {items : List (Item IoError × Bytes)}
    (h : (CobsCodec.decoder cobs IoError).framedRead src chunks = .ok (items, left)) :
    ∀ entry ∈ items, Yielded (.ok entry.1) := by
  have hitem (buf : Bytes) (item : Item IoError) (buf' : Bytes)
      (hdecode : CobsCodec.decode cobs buf = .ok (some item, buf')) : Yielded (.ok item) := by
    obtain ⟨hmem, -⟩ := CobsCodec.decode_eq_some hdecode
    obtain ⟨frame, behind, rfl, hz⟩ := List.eq_append_cons_of_mem hmem
    obtain ⟨residue, _, hframe⟩ := CobsCodec.decode_frame IoError cobs hz
    rw [hframe] at hdecode
    cases hdecode
    unfold frameItem
    cases Cobs.unstuff frame with
    | some data => exact .packet data
    | none => exact .protocolError
  apply Decoder.framedRead_forall (hitem _ _ _) _ h
  intro buf item buf' hdecode
  exact hitem _ item buf' ((CobsCodec.decodeEof_eq buf).symm.trans hdecode)

/-- The reader survives a sequence of results exactly when none of them is a
failure of the port. -/
theorem survivesReads_iff {results : List (ReadResult IoError)}
    (hyielded : ∀ x ∈ results, Yielded x) :
    SurvivesReads results ↔ ∀ x ∈ results, ∃ item, x = .ok item := by
  constructor
  · intro hsurvives x hmem
    cases x with
    | ok item => exact ⟨item, rfl⟩
    | error err =>
        have hpanic := RawIO.read_of_portError .default hyielded hmem rfl
        rw [SurvivesReads, hpanic] at hsurvives
        cases hsurvives
  · intro hport
    have hnone : ∀ x ∈ results, isIoError x = false := by
      intro x hmem
      cases hyielded x hmem with
      | packet pkt => rfl
      | protocolError => rfl
      | portError err =>
          obtain ⟨item, hitem⟩ := hport _ hmem
          cases hitem
    have hall : results.takeWhile (fun x => !isIoError x) = results := by
      rw [List.takeWhile_eq_self_iff]
      intro x hmem
      simp [hnone x hmem]
    have hany : results.any isIoError = false := by
      rw [List.any_eq_false]
      intro x hmem
      simp [hnone x hmem]
    rw [SurvivesReads, RawIO.read_of_port_ok .default hyielded hport rfl, hall, hany]
    rfl

theorem survivesReads_malformed :
    SurvivesReads ([.ok (.ok [1]), .ok (.error .cobsProtocol), .ok (.ok [2])] :
      List (ReadResult Unit)) := by
  rw [survivesReads_iff]
  · simp
  · simp only [List.mem_cons, List.not_mem_nil, or_false, forall_eq_or_imp, forall_eq]
    exact ⟨.packet _, .protocolError, .packet _⟩

/-- The port fails after a packet. -/
theorem portError_panics :
    (∀ x ∈ ([.ok (.ok [1]), .error ()] : List (ReadResult Unit)), Yielded x) ∧
      RawIO.default.read ([.ok (.ok [1]), .error ()] : List (ReadResult Unit)) = .panicked ∧
      ¬ SurvivesReads ([.ok (.ok [1]), .error ()] : List (ReadResult Unit)) := by
  refine ⟨?_, rfl, ?_⟩
  · simp only [List.mem_cons, List.not_mem_nil, or_false, forall_eq_or_imp, forall_eq]
    exact ⟨.packet _, .portError _⟩
  · intro hsurvives
    cases hsurvives

end AntRelay.Runtime
