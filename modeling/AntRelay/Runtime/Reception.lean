import AntRelay.Runtime.Delivery

namespace AntRelay.Runtime
open AntRelay.Base AntRelay.Codec

namespace PortSeen

def read? (n : Nat) : PortSeen → Option Bytes
  | .read port chunk => if port = n then some chunk else none
  | _ => none

def downPacket? (n : Nat) : PortSeen → Option Bytes
  | .downPacket port pkt => if port = n then some pkt else none
  | _ => none

end PortSeen

def readFrom (n : Nat) (seen : List PortSeen) : Bytes :=
  (seen.filterMap (PortSeen.read? n)).flatten

def publishedFrom (n : Nat) (seen : List PortSeen) : List Bytes :=
  seen.filterMap (PortSeen.downPacket? n)

def bytesOf (frames : List CobsCodec.Frame) : Bytes :=
  (frames.map CobsCodec.Frame.bytes).flatten

/-- The other ends send these frames: what is read from a port is how they begin,
and all of them when the port has no more. -/
structure SendsFrames (frames : Nat → List CobsCodec.Frame) (seen : List PortSeen) : Prop where
  begins : ∀ n, readFrom n seen <+: bytesOf (frames n)
  ends : ∀ n, .ended n ∈ seen → readFrom n seen = bytesOf (frames n)

section Logs

variable (n : Nat) (seen shown : List PortSeen)

theorem readFrom_append : readFrom n (seen ++ shown) = readFrom n seen ++ readFrom n shown := by
  rw [readFrom, List.filterMap_append, List.flatten_append]
  rfl

theorem publishedFrom_append :
    publishedFrom n (seen ++ shown) = publishedFrom n seen ++ publishedFrom n shown :=
  List.filterMap_append

theorem readFrom_read (port : Nat) (chunk : Bytes) :
    readFrom n [.read port chunk] = if port = n then chunk else [] := by
  by_cases hn : port = n <;> simp [readFrom, PortSeen.read?, hn]

theorem publishedFrom_downPacket (port : Nat) (pkt : Bytes) :
    publishedFrom n [.downPacket port pkt] = if port = n then [pkt] else [] := by
  by_cases hn : port = n <;> simp [publishedFrom, PortSeen.downPacket?, hn]

end Logs

structure PortReads (s : PortActor) (seen : List PortSeen) : Prop where
  sound : s.Sound
  silent : ∀ n, .ended n ∈ seen → ∀ port, s.port = some port → port.number = n → port.ended = true
  future : ∀ n, s.opened ≤ n → readFrom n seen = [] ∧ publishedFrom n seen = [] ∧ .ended n ∉ seen

section PortReads

variable {cobs : CobsCrate} {s s' : PortActor} {seen shown : List PortSeen}

theorem PortReads.kept (h : PortReads s seen) (hsound : s'.Sound) (hopened : s'.opened = s.opened)
    (hport : ∀ port', s'.port = some port' → ∃ port, s.port = some port ∧
      port'.number = port.number ∧ port'.ended = port.ended)
    (hended : ∀ n, .ended n ∉ shown)
    (hlogs : ∀ n, s.opened ≤ n → readFrom n shown = [] ∧ publishedFrom n shown = []) :
    PortReads s' (seen ++ shown) := by
  have hold (n : Nat) (hmem : .ended n ∈ seen ++ shown) : .ended n ∈ seen :=
    (List.mem_append.mp hmem).resolve_right (hended n)
  refine ⟨hsound, ?_, ?_⟩
  · intro n hmem port' hport' hnumber'
    obtain ⟨port, hbefore, hnumber, hflag⟩ := hport port' hport'
    rw [hflag]
    exact h.silent n (hold n hmem) port hbefore (hnumber.symm.trans hnumber')
  · intro n hn
    rw [hopened] at hn
    obtain ⟨hread, hpublished, hnot⟩ := h.future n hn
    rw [readFrom_append, publishedFrom_append, hread, hpublished, (hlogs n hn).1, (hlogs n hn).2]
    exact ⟨rfl, rfl, fun hmem => hnot (hold n hmem)⟩

theorem PortReads.opens (h : PortReads s seen) (hsound : s'.Sound)
    (hopened : s'.opened = s.opened + 1) (hport : ∀ port, s'.port = some port →
      port.number = s.opened) : PortReads s' (seen ++ [.opened s.opened]) := by
  have hold (n : Nat) (hmem : .ended n ∈ seen ++ [.opened s.opened]) : .ended n ∈ seen := by
    simpa using hmem
  refine ⟨hsound, ?_, ?_⟩
  · intro n hmem port hport' hnumber
    rw [← hnumber, hport port hport'] at hmem
    exact absurd (hold _ hmem) (h.future s.opened (Nat.le_refl _)).2.2
  · intro n hn
    obtain ⟨hread, hpublished, hnot⟩ := h.future n (by omega)
    rw [readFrom_append, publishedFrom_append, hread, hpublished]
    exact ⟨rfl, rfl, fun hmem => hnot (hold n hmem)⟩

theorem PortReads.endsRead (h : PortReads s seen) {port : Port} (hport : s.port = some port) :
    PortReads { s with port := some { port with ended := true } }
      (seen ++ [.ended port.number]) := by
  have hlast := h.sound.last port hport
  refine ⟨h.sound.replaced hport rfl rfl, ?_, ?_⟩
  · rintro n _ port' hport' _
    cases hport'
    rfl
  · intro n hn
    have hopened : s.opened ≤ n := hn
    obtain ⟨hread, hpublished, hnot⟩ := h.future n hopened
    rw [readFrom_append, publishedFrom_append, hread, hpublished]
    refine ⟨rfl, rfl, ?_⟩
    intro hmem
    rcases List.mem_append.mp hmem with hold | hnew
    · exact hnot hold
    · cases List.mem_singleton.mp hnew
      omega

theorem PortReads.moved {a : PortAction} (h : PortReads s seen)
    (hmoved : PortMoved cobs s a s' shown) : PortReads s' (seen ++ shown) := by
  have hsound := h.sound.moved hmoved
  have hnone : ∀ n, s.opened ≤ n → readFrom n [] = [] ∧ publishedFrom n [] = [] :=
    fun _ _ => ⟨rfl, rfl⟩
  -- the open port is another value with the same number and end
  have hsame {port port' : Port} (hport : s.port = some port) (hport' : s'.port = some port')
      (hnumber : port'.number = port.number) (hflag : port'.ended = port.ended) :
      ∀ other', s'.port = some other' → ∃ other, s.port = some other ∧
        other'.number = other.number ∧ other'.ended = other.ended := by
    intro other' hother'
    rw [hport'] at hother'
    cases hother'
    exact ⟨port, hport, hnumber, hflag⟩
  cases hmoved with
  | arrived pkt =>
      exact h.kept hsound rfl (fun port hport => ⟨port, hport, rfl, rfl⟩) (by simp)
        fun _ _ => ⟨rfl, rfl⟩
  | opened _ =>
      refine h.opens hsound rfl ?_
      intro port hport
      cases hport
      rfl
  | refused _ =>
      exact h.kept hsound rfl (fun port hport => ⟨port, hport, rfl, rfl⟩) (by simp) hnone
  | slept _ =>
      exact h.kept hsound rfl (fun port hport => ⟨port, hport, rfl, rfl⟩) (by simp) hnone
  | sent _ _ hport _ _ =>
      exact h.kept hsound rfl (hsame hport rfl rfl rfl) (by simp) fun _ _ => ⟨rfl, rfl⟩
  | dropped _ _ _ =>
      exact h.kept hsound rfl (fun port hport => ⟨port, hport, rfl, rfl⟩) (by simp)
        fun _ _ => ⟨rfl, rfl⟩
  | encoded hport _ => exact h.kept hsound rfl (hsame hport rfl rfl rfl) (by simp) hnone
  | wrote hport count =>
      exact h.kept hsound rfl (hsame hport rfl rfl rfl) (by simp) fun _ _ => ⟨rfl, rfl⟩
  | writeFailed hport => exact h.kept hsound rfl (hsame hport rfl rfl rfl) (by simp) hnone
  | read hport _ chunk =>
      have hlast := h.sound.last _ hport
      refine h.kept hsound rfl (hsame hport rfl rfl rfl) (by simp) ?_
      intro n hn
      rw [readFrom_read, if_neg (by omega)]
      exact ⟨rfl, rfl⟩
  | ended hport => exact h.endsRead hport
  | readFailed =>
      exact h.kept hsound rfl (fun port hport => ⟨port, hport, rfl, rfl⟩) (by simp)
        fun _ _ => ⟨rfl, rfl⟩
  | nothing hport _ => exact h.kept hsound rfl (hsame hport rfl rfl rfl) (by simp) hnone
  | downPacket hport _ =>
      have hlast := h.sound.last _ hport
      refine h.kept hsound rfl (hsame hport rfl rfl rfl) (by simp) ?_
      intro n hn
      rw [publishedFrom_downPacket, if_neg (by omega)]
      exact ⟨rfl, rfl⟩
  | skipped hport _ =>
      exact h.kept hsound rfl (hsame hport rfl rfl rfl) (by simp) fun _ _ => ⟨rfl, rfl⟩
  | restarted _ =>
      refine h.kept hsound rfl ?_ (by simp) hnone
      intro port hport
      cases hport

theorem readFrom_of_ended {a : PortAction} (h : PortReads s seen)
    (hmoved : PortMoved cobs s a s' shown) {n : Nat} (hended : .ended n ∈ seen) :
    readFrom n shown = [] := by
  cases hmoved with
  | read hport hopen chunk =>
      rw [readFrom_read, if_neg]
      rintro rfl
      rw [h.silent _ hended _ hport rfl] at hopen
      cases hopen
  | _ => rfl

end PortReads

structure Receiving (cobs : CobsCrate) (frames : Nat → List CobsCodec.Frame) (s : PortActor)
    (seen : List PortSeen) : Prop where
  current : ∀ port, s.port = some port → ∃ rest unsent,
    (frames port.number).map CobsCodec.Frame.packet =
      publishedFrom port.number seen ++ rest.map CobsCodec.Frame.packet ∧
      Channel.Carries (CobsCodec.frames cobs Empty) ⟨unsent, [], port.buffer⟩ rest ∧
      bytesOf (frames port.number) = readFrom port.number seen ++ unsent ∧
      (port.ended = true → unsent = [])
  past : ∀ n, publishedFrom n seen <+: (frames n).map CobsCodec.Frame.packet ∧
    .protocolError n ∉ seen

section Receiving

variable {cobs : CobsCrate} {frames : Nat → List CobsCodec.Frame} {s s' : PortActor}
  {seen shown : List PortSeen}

theorem SendsFrames.before {a : PortAction} (h : SendsFrames frames (seen ++ shown))
    (hreads : PortReads s seen) (hmoved : PortMoved cobs s a s' shown) :
    SendsFrames frames seen where
  begins := by
    intro n
    have hall := h.begins n
    rw [readFrom_append] at hall
    exact (List.prefix_append _ _).trans hall
  ends := by
    intro n hended
    have hall := h.ends n (List.mem_append_left _ hended)
    rwa [readFrom_append, readFrom_of_ended hreads hmoved hended, List.append_nil] at hall

theorem terminated_bytesOf (frames : List CobsCodec.Frame) :
    CobsCodec.Terminated (bytesOf frames) := by
  rcases List.eq_nil_or_concat frames with rfl | ⟨front, frame, rfl⟩
  · intro byte hbyte
    cases hbyte
  · intro byte hbyte
    rw [List.concat_eq_append, bytesOf, List.map_append, List.flatten_append, List.map_singleton,
      List.flatten_singleton, CobsCodec.Frame.bytes, ← List.append_assoc,
      List.getLast?_concat] at hbyte
    cases hbyte
    rfl

/-- At the end of the port the reader holds whole frames. -/
theorem decode_of_carries {port : Port} {rest : List CobsCodec.Frame} {unsent : Bytes}
    (hcarries : Channel.Carries (CobsCodec.frames cobs Empty) ⟨unsent, [], port.buffer⟩ rest)
    (hended : port.ended = true → unsent = []) :
    (if port.ended then CobsCodec.decodeEof cobs port.buffer
      else CobsCodec.decode cobs port.buffer) =
        (CobsCodec.decode cobs port.buffer : Outcome Empty (Option (Item Empty) × Bytes)) := by
  split
  · rename_i hflag
    have hbuffer : port.buffer = bytesOf rest := by
      have hbytes := hcarries.bytes
      rw [hended hflag] at hbytes
      exact (List.append_nil _).symm.trans hbytes
    rw [CobsCodec.decodeEof_eq, if_pos]
    rw [hbuffer]
    exact terminated_bytesOf rest
  · rfl

theorem Receiving.past_append (h : Receiving cobs frames s seen)
    (hpublished : ∀ n, publishedFrom n shown = []) (hskipped : ∀ n, .protocolError n ∉ shown)
    (n : Nat) :
    publishedFrom n (seen ++ shown) <+: (frames n).map CobsCodec.Frame.packet ∧
      .protocolError n ∉ seen ++ shown := by
  rw [publishedFrom_append, hpublished, List.append_nil]
  refine ⟨(h.past n).1, ?_⟩
  intro hmem
  exact (List.mem_append.mp hmem).elim (h.past n).2 (hskipped n)

theorem Receiving.aside (h : Receiving cobs frames s seen)
    (hport : ∀ port', s'.port = some port' → ∃ port, s.port = some port ∧
      port'.number = port.number ∧ port'.buffer = port.buffer ∧ port'.ended = port.ended)
    (hread : ∀ n, readFrom n shown = []) (hpublished : ∀ n, publishedFrom n shown = [])
    (hskipped : ∀ n, .protocolError n ∉ shown) : Receiving cobs frames s' (seen ++ shown) := by
  refine ⟨?_, ?_⟩
  · intro port' hport'
    obtain ⟨port, hbefore, hnumber, hbuffer, hended⟩ := hport port' hport'
    obtain ⟨rest, unsent, hitems, hcarries, hframes, hend⟩ := h.current port hbefore
    refine ⟨rest, unsent, ?_, ?_, ?_, ?_⟩
    · rw [hnumber, publishedFrom_append, hpublished, List.append_nil]
      exact hitems
    · rw [hbuffer]
      exact hcarries
    · rw [hnumber, readFrom_append, hread, List.append_nil]
      exact hframes
    · rw [hended]
      exact hend
  · exact h.past_append hpublished hskipped

theorem Receiving.opens (h : Receiving cobs frames s seen) (hreads : PortReads s seen)
    (hport : s'.port = some ⟨s.opened, [], [], true, [], false⟩) :
    Receiving cobs frames s' (seen ++ [.opened s.opened]) := by
  obtain ⟨hread, hpublished, _⟩ := hreads.future s.opened (Nat.le_refl _)
  refine ⟨?_, ?_⟩
  · intro port hport'
    rw [hport] at hport'
    cases hport'
    refine ⟨frames s.opened, bytesOf (frames s.opened), ?_, ⟨fun _ _ => trivial, rfl⟩, ?_, by simp⟩
    · rw [publishedFrom_append, hpublished]
      rfl
    · rw [readFrom_append, hread]
      rfl
  · exact h.past_append (fun _ => rfl) (by simp)

theorem Receiving.reads (h : Receiving cobs frames s seen) {port : Port}
    (hport : s.port = some port) (hopen : port.ended = false) {chunk : Bytes}
    (hsends : SendsFrames frames (seen ++ [.read port.number chunk])) :
    Receiving cobs frames { s with port := some { port with buffer := port.buffer ++ chunk } }
      (seen ++ [.read port.number chunk]) := by
  have hthis : readFrom port.number (seen ++ [.read port.number chunk]) =
      readFrom port.number seen ++ chunk := by
    rw [readFrom_append, readFrom_read, if_pos rfl]
  refine ⟨?_, ?_⟩
  · intro port' hport'
    cases hport'
    obtain ⟨rest, unsent, hitems, hcarries, hframes, _⟩ := h.current port hport
    obtain ⟨unsent', hmore⟩ := hsends.begins port.number
    have hcut : unsent = chunk ++ unsent' := by
      rw [hframes, hthis, List.append_assoc] at hmore
      exact (List.append_cancel_left hmore).symm
    refine ⟨rest, unsent', ?_, ?_, ?_, ?_⟩
    · rw [publishedFrom_append]
      exact hitems.trans (by simp [publishedFrom, PortSeen.downPacket?])
    · rw [hcut] at hcarries
      exact ⟨hcarries.fits, by simpa using hcarries.bytes⟩
    · exact hmore.symm
    · intro hended
      rw [hopen] at hended
      cases hended
  · exact h.past_append (fun _ => rfl) (by simp)

theorem Receiving.endsRead (h : Receiving cobs frames s seen) {port : Port}
    (hport : s.port = some port) (hsends : SendsFrames frames (seen ++ [.ended port.number])) :
    Receiving cobs frames { s with port := some { port with ended := true } }
      (seen ++ [.ended port.number]) := by
  have hthis : readFrom port.number (seen ++ [.ended port.number]) =
      readFrom port.number seen := by
    rw [readFrom_append]
    exact List.append_nil _
  refine ⟨?_, ?_⟩
  · intro port' hport'
    cases hport'
    obtain ⟨rest, unsent, hitems, hcarries, hframes, _⟩ := h.current port hport
    have hall := hsends.ends port.number (by simp)
    rw [hthis, hframes] at hall
    have hnone : unsent = [] := List.self_eq_append_right.mp hall
    refine ⟨rest, unsent, ?_, hcarries, ?_, fun _ => hnone⟩
    · rw [publishedFrom_append]
      exact hitems.trans (by simp [publishedFrom, PortSeen.downPacket?])
    · rw [hthis]
      exact hframes
  · exact h.past_append (fun _ => rfl) (by simp)

theorem Receiving.decodes (h : Receiving cobs frames s seen) {port : Port}
    (hport : s.port = some port) {pkt left : Bytes}
    (hdecode : (if port.ended then CobsCodec.decodeEof cobs port.buffer
      else CobsCodec.decode cobs port.buffer) =
        (.ok (some (.ok pkt), left) : Outcome Empty (Option (Item Empty) × Bytes))) :
    Receiving cobs frames { s with port := some { port with buffer := left } }
      (seen ++ [.downPacket port.number pkt]) := by
  obtain ⟨rest, unsent, hitems, hcarries, hframes, hended⟩ := h.current port hport
  rw [decode_of_carries hcarries hended] at hdecode
  have hthis : publishedFrom port.number (seen ++ [.downPacket port.number pkt]) =
      publishedFrom port.number seen ++ [pkt] := by
    rw [publishedFrom_append, publishedFrom_downPacket, if_pos rfl]
  rcases hcarries.decode with hnothing | ⟨a, more, left', rfl, hitem, hmore⟩
  · have hnone : CobsCodec.decode cobs port.buffer =
      (.ok (none, port.buffer) : Outcome Empty (Option (Item Empty) × Bytes)) := hnothing
    rw [hdecode] at hnone
    cases hnone
  · have hnext : CobsCodec.decode cobs port.buffer =
      (.ok (some (.ok a.packet), left') : Outcome Empty (Option (Item Empty) × Bytes)) := hitem
    rw [hdecode] at hnext
    cases hnext
    refine ⟨?_, ?_⟩
    · intro port' hport'
      cases hport'
      refine ⟨more, unsent, ?_, hmore, ?_, hended⟩
      · rw [hthis, hitems, List.append_assoc]
        rfl
      · rw [readFrom_append]
        exact hframes.trans (by simp [readFrom, PortSeen.read?])
    · intro n
      refine ⟨?_, ?_⟩
      · by_cases hn : port.number = n
        · rw [← hn, hthis, hitems]
          exact ⟨more.map CobsCodec.Frame.packet, by simp⟩
        · rw [publishedFrom_append, publishedFrom_downPacket, if_neg hn, List.append_nil]
          exact (h.past n).1
      · intro hmem
        exact (h.past n).2 (by simpa using hmem)

theorem Receiving.moved {a : PortAction} (h : Receiving cobs frames s seen)
    (hreads : PortReads s seen) (hsends : SendsFrames frames (seen ++ shown))
    (hmoved : PortMoved cobs s a s' shown) : Receiving cobs frames s' (seen ++ shown) := by
  have hsame {port port' : Port} (hport : s.port = some port) (hport' : s'.port = some port')
      (hnumber : port'.number = port.number) (hbuffer : port'.buffer = port.buffer)
      (hflag : port'.ended = port.ended) :
      ∀ other', s'.port = some other' → ∃ other, s.port = some other ∧
        other'.number = other.number ∧ other'.buffer = other.buffer ∧
        other'.ended = other.ended := by
    intro other' hother'
    rw [hport'] at hother'
    cases hother'
    exact ⟨port, hport, hnumber, hbuffer, hflag⟩
  cases hmoved with
  | arrived pkt =>
      exact h.aside (fun port hport => ⟨port, hport, rfl, rfl, rfl⟩) (fun _ => rfl)
        (fun _ => rfl) (by simp)
  | opened _ => exact h.opens hreads rfl
  | refused _ =>
      exact h.aside (fun port hport => ⟨port, hport, rfl, rfl, rfl⟩) (fun _ => rfl)
        (fun _ => rfl) (by simp)
  | slept _ =>
      exact h.aside (fun port hport => ⟨port, hport, rfl, rfl, rfl⟩) (fun _ => rfl)
        (fun _ => rfl) (by simp)
  | sent _ _ hport _ _ =>
      exact h.aside (hsame hport rfl rfl rfl rfl) (fun _ => rfl) (fun _ => rfl) (by simp)
  | dropped _ _ _ =>
      exact h.aside (fun port hport => ⟨port, hport, rfl, rfl, rfl⟩) (fun _ => rfl)
        (fun _ => rfl) (by simp)
  | encoded hport _ =>
      exact h.aside (hsame hport rfl rfl rfl rfl) (fun _ => rfl) (fun _ => rfl) (by simp)
  | wrote hport count =>
      exact h.aside (hsame hport rfl rfl rfl rfl) (fun _ => rfl) (fun _ => rfl) (by simp)
  | writeFailed hport =>
      exact h.aside (hsame hport rfl rfl rfl rfl) (fun _ => rfl) (fun _ => rfl) (by simp)
  | read hport hopen chunk => exact h.reads hport hopen hsends
  | ended hport => exact h.endsRead hport hsends
  | readFailed =>
      exact h.aside (fun port hport => ⟨port, hport, rfl, rfl, rfl⟩) (fun _ => rfl)
        (fun _ => rfl) (by simp)
  | @nothing port buffer hport hdecode =>
      obtain ⟨rest, unsent, _, hcarries, _, hended⟩ := h.current port hport
      rw [decode_of_carries hcarries hended] at hdecode
      have hbuffer : buffer = port.buffer := by
        rcases hcarries.decode with hnothing | ⟨a, more, left, _, hitem, _⟩
        · cases hdecode.symm.trans hnothing
          rfl
        · cases hdecode.symm.trans hitem
      exact h.aside (hsame hport rfl rfl hbuffer rfl) (fun _ => rfl) (fun _ => rfl) (by simp)
  | downPacket hport hdecode => exact h.decodes hport hdecode
  | skipped hport hdecode =>
      obtain ⟨rest, unsent, _, hcarries, _, hended⟩ := h.current _ hport
      rw [decode_of_carries hcarries hended] at hdecode
      rcases hcarries.decode with hnothing | ⟨a, more, left, _, hitem, _⟩
      · cases hdecode.symm.trans hnothing
      · cases hdecode.symm.trans hitem
  | restarted _ =>
      refine h.aside ?_ (fun _ => rfl) (fun _ => rfl) (by simp)
      intro port hport
      cases hport

end Receiving

/-- In every run in which the other ends of the ports send whole frames, what is
published from a port are the first of their packets, in order; no frame is
skipped; and once all has been read and no whole frame is left in the reader all
have been published. -/
theorem packets_published_from_ports {cobs : CobsCrate} {frames : Nat → List CobsCodec.Frame}
    {visits : List (Visit PortActor PortAction PortSeen)} {s : PortActor} {seen : List PortSeen}
    (hrun : (PortActor.machine cobs).Run visits s seen) (hsends : SendsFrames frames seen) :
    (∀ n, publishedFrom n seen <+: (frames n).map CobsCodec.Frame.packet ∧
        .protocolError n ∉ seen) ∧
      ∀ port, s.port = some port → readFrom port.number seen = bytesOf (frames port.number) →
        (0 : UInt8) ∉ port.buffer →
          publishedFrom port.number seen = (frames port.number).map CobsCodec.Frame.packet := by
  have hinit : PortReads (PortActor.machine cobs).init [] ∧
      (SendsFrames frames [] → Receiving cobs frames (PortActor.machine cobs).init []) := by
    refine ⟨⟨PortActor.sound_default, by simp, fun _ _ => ⟨rfl, rfl, by simp⟩⟩, fun _ => ⟨?_, ?_⟩⟩
    · intro port hport
      cases hport
    · intro n
      exact ⟨List.nil_prefix, by simp⟩
  obtain ⟨⟨_, hreceiving⟩, _⟩ := hrun.always
    (fun s seen => PortReads s seen ∧ (SendsFrames frames seen → Receiving cobs frames s seen))
    hinit (by
      intro s seen a s' shown hinv hnext
      have hmoved := portMoved_of_next hnext
      refine ⟨hinv.1.moved hmoved, fun hall => ?_⟩
      exact (hinv.2 (hall.before hinv.1 hmoved)).moved hinv.1 hall hmoved)
  have h := hreceiving hsends
  refine ⟨h.past, ?_⟩
  intro port hport hall hzero
  obtain ⟨rest, unsent, hitems, hcarries, hframes, _⟩ := h.current port hport
  rw [hall] at hframes
  have hnone : unsent = [] := List.self_eq_append_right.mp hframes
  have hrest : rest = [] := hcarries.eq_nil rfl hnone (CobsCodec.decode_of_zero_not_mem hzero)
  rw [hitems, hrest, List.map_nil, List.append_nil]

def receives : List PortAction :=
  [.finish 0 true, .read [2, 1], .decode, .read [2, 7, 0], .decode, .readEnded, .decode]

theorem packets_published_from_ports_receives : ∃ visits s seen,
    (PortActor.machine .reference).Run visits s seen ∧ visits.length = 7 ∧
      publishedFrom 0 seen = [[1, 0, 7]] := by
  have hrun := Machine.Run.start.follow
    (show (PortActor.machine .reference).follow [] _ [] receives = some (_, _, _) from rfl)
  have hall := packets_published_from_ports hrun
    (show SendsFrames (fun n => if n = 0 then [⟨[2, 1, 2, 7], [1, 0, 7], by decide, rfl⟩] else [])
      _ from ⟨by
      intro n
      rcases n with _ | n
      · exact ⟨[], rfl⟩
      · exact ⟨[], rfl⟩, by
      intro n _
      rcases n with _ | n <;> rfl⟩)
  exact ⟨_, _, _, hrun, rfl, hall.2 _ rfl rfl (by decide)⟩

end AntRelay.Runtime
