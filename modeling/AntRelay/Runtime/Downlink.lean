import AntRelay.Base.Outcome
import AntRelay.Format.Downlink

namespace AntRelay.Runtime
open AntRelay.Base AntRelay.Base.Bincode AntRelay.Format

structure Brotli (ε : Type) where
  compress : Bytes → Except ε Bytes
  decompress : Bytes → Except ε Bytes

/-- Decompression inverts compression. -/
def Brotli.Inverts {ε : Type} (brotli : Brotli ε) : Prop :=
  ∀ {message packet}, brotli.compress message = .ok packet → brotli.decompress packet = .ok message

inductive DecodeError (ε : Type) where
  | io (err : ε)
  | bincode (kind : ErrorKind)

variable {ε σ μ : Type} {crc : Checksum}

/-- The packet given to the sender.  An error is logged and nothing is sent;
serializing to memory has none of its own. -/
def genHandle (brotli : Brotli ε) (extract : μ → Downlink crc) (sender : Option σ) (msg : μ) :
    Outcome ε (σ × Bytes) :=
  let d := extract msg
  let encoded := serialize Downlink.codec d
  match brotli.compress encoded with
  | .error e => .error e
  | .ok result =>
      match sender with
      | some sender => .ok (sender, result)
      | none => .panicked

def decodeDownlink (brotli : Brotli ε) (buf : Bytes) : Except (DecodeError ε) (Downlink crc) :=
  match brotli.decompress buf with
  | .error e => .error (.io e)
  | .ok decompressed =>
      match deserialize Downlink.codec decompressed with
      | .error e => .error (.bincode e)
      | .ok msg => .ok msg

theorem genHandle_eq_ok {brotli : Brotli ε} {extract : μ → Downlink crc} {sender : Option σ}
    {msg : μ} {socket : σ} {packet : Bytes} :
    genHandle brotli extract sender msg = .ok (socket, packet) ↔
      sender = some socket ∧
        brotli.compress (serialize Downlink.codec (extract msg)) = .ok packet := by
  unfold genHandle
  dsimp only
  split
  · rename_i e he
    simp [he]
  · rename_i result hresult
    cases sender with
    | none => simp
    | some sender => simp [hresult]

/-- Every packet that is sent decodes to the value it was made of; the checksum
of a message in it is a function of that value. -/
theorem decodeDownlink_genHandle {brotli : Brotli ε} (hbrotli : brotli.Inverts)
    {extract : μ → Downlink crc} {msg : μ} (hmsg : (extract msg).Addressable)
    {sender : Option σ} {socket : σ} {packet : Bytes}
    (hsent : genHandle brotli extract sender msg = .ok (socket, packet)) :
    decodeDownlink brotli packet = .ok (extract msg) := by
  have hcompress := (genHandle_eq_ok.mp hsent).2
  have hread : deserialize Downlink.codec (serialize Downlink.codec (extract msg)) =
      .ok (extract msg) := Codec.deserialize_serialize _ hmsg
  simp only [decodeDownlink, hbrotli hcompress, hread]

/-- A stream of one uncompressed block, which is what becomes of a short message
that does not compress. -/
def storedStream (message : Bytes) : Bytes :=
  natToLE 3 (0x80000b + 128 * (message.length - 1)) ++ message ++ [0x03]

def Brotli.stored : Brotli Unit where
  compress := fun message =>
    if 0 < message.length ∧ message.length ≤ 65536 then .ok (storedStream message)
    else .error ()
  decompress := fun packet =>
    let message := (packet.drop 3).dropLast
    if packet = storedStream message then .ok message else .error ()

theorem Brotli.stored_inverts : Brotli.stored.Inverts := by
  intro message packet h
  have hpacket : storedStream message = packet := by
    unfold Brotli.stored at h
    dsimp only at h
    split at h
    · cases h
      rfl
    · contradiction
  have hmessage : (packet.drop 3).dropLast = message := by
    rw [← hpacket, storedStream, List.append_assoc, List.drop_left' (natToLE_length 3 _),
      List.dropLast_concat]
  change (if packet = storedStream (packet.drop 3).dropLast then _ else _) = _
  rw [hmessage, if_pos hpacket.symm]

theorem decodeDownlink_genHandle_raw :
    decodeDownlink Brotli.stored
      [0x8b, 0x06, 0x80, 5, 0, 0, 0, 2, 0, 0, 0, 0, 0, 0, 0, 0xa7, 0xb3, 0x03] =
      .ok (Downlink.serialUplinkRaw ⟨[0xa7, 0xb3]⟩ : Downlink (StandardCRC crc8Smbus)) := by
  have hmsg : (id (.serialUplinkRaw ⟨[0xa7, 0xb3]⟩) :
      Downlink (StandardCRC crc8Smbus)).Addressable := by
    change 2 < 2 ^ 64
    decide
  have hsent : genHandle Brotli.stored id (some ())
      (.serialUplinkRaw ⟨[0xa7, 0xb3]⟩ : Downlink (StandardCRC crc8Smbus)) =
      .ok ((), [0x8b, 0x06, 0x80, 5, 0, 0, 0, 2, 0, 0, 0, 0, 0, 0, 0, 0xa7, 0xb3, 0x03]) := by
    decide
  exact decodeDownlink_genHandle Brotli.stored_inverts hmsg hsent

end AntRelay.Runtime
