import AntRelay.Runtime.Port

namespace AntRelay.Runtime
open AntRelay.Base AntRelay.Codec

namespace PortSeen

def upPacket? : PortSeen → Option Bytes
  | .upPacket pkt => some pkt
  | _ => none

def sent? (n : Nat) : PortSeen → Option Bytes
  | .sent port pkt => if port = n then some pkt else none
  | _ => none

def wrote? (n : Nat) : PortSeen → Option Bytes
  | .wrote port bytes => if port = n then some bytes else none
  | _ => none

end PortSeen

def sentTo (n : Nat) (seen : List PortSeen) : List Bytes :=
  seen.filterMap (PortSeen.sent? n)

def wroteTo (n : Nat) (seen : List PortSeen) : Bytes :=
  (seen.filterMap (PortSeen.wrote? n)).flatten

def framesOf (cobs : CobsCrate) (packets : List Bytes) : Bytes :=
  (packets.map (CobsCodec.frame cobs Empty)).flatten

section Logs

variable {cobs : CobsCrate} (n : Nat) (seen shown : List PortSeen)

theorem sentTo_append : sentTo n (seen ++ shown) = sentTo n seen ++ sentTo n shown :=
  List.filterMap_append

theorem wroteTo_append : wroteTo n (seen ++ shown) = wroteTo n seen ++ wroteTo n shown := by
  rw [wroteTo, List.filterMap_append, List.flatten_append]
  rfl

theorem framesOf_append (first second : List Bytes) :
    framesOf cobs (first ++ second) = framesOf cobs first ++ framesOf cobs second := by
  rw [framesOf, List.map_append, List.flatten_append]
  rfl

@[simp] theorem framesOf_singleton (pkt : Bytes) :
    framesOf cobs [pkt] = CobsCodec.frame cobs Empty pkt := by
  simp [framesOf]

end Logs

namespace PortActor

structure Sound (s : PortActor) : Prop where
  waits : s.waits ∈ [[], [.makeIo], [.sleep], [.sleep, .makeIo]]
  live : .makeIo ∉ s.waits → s.stopping = false →
    ∃ port, s.port = some port ∧ s.tx = some port.number ∧ port.writing = true
  last : ∀ port, s.port = some port → port.number + 1 = s.opened

theorem sound_default : Sound default where
  waits := by decide
  live := by
    intro hmem
    exact absurd (by decide) hmem
  last := by
    intro port hport
    cases hport

theorem waits_of_ready {s : PortActor} (h : s.ready = true) :
    s.waits = [] ∧ s.stopping = false := by
  simp only [ready, Bool.and_eq_true, List.isEmpty_iff, Bool.not_eq_true'] at h
  exact ⟨h.1.1, h.1.2⟩

theorem Sound.ready {s : PortActor} (h : Sound s) (hready : s.ready = true) :
    ∃ port, s.port = some port ∧ s.tx = some port.number ∧ port.writing = true := by
  obtain ⟨hwaits, hstopping⟩ := waits_of_ready hready
  exact h.live (by simp [hwaits]) hstopping

theorem Sound.finished {s : PortActor} (h : Sound s) {index : Nat} {wait : PortWait}
    (hwait : s.waits[index]? = some wait) :
    s.waits.eraseIdx index ∈ [[], [.makeIo], [.sleep], [.sleep, .makeIo]] ∧
      (wait = .sleep → .makeIo ∉ s.waits.eraseIdx index → .makeIo ∉ s.waits) := by
  have hmem := h.waits
  simp only [List.mem_cons, List.not_mem_nil, or_false] at hmem
  rcases hmem with hwaits | hwaits | hwaits | hwaits <;> rw [hwaits] at hwait ⊢ <;>
    rcases index with _ | _ | index <;> simp at hwait <;> subst hwait <;> simp

theorem Sound.replaced {s : PortActor} (h : Sound s) {port port' : Port}
    (hport : s.port = some port) (hnumber : port'.number = port.number)
    (hwriting : port'.writing = port.writing) : Sound { s with port := some port' } where
  waits := h.waits
  live := by
    intro hwaits hstopping
    obtain ⟨other, hother, htx, hwrites⟩ := h.live hwaits hstopping
    rw [hport] at hother
    cases hother
    exact ⟨port', rfl, by rw [hnumber]; exact htx, hwriting.trans hwrites⟩
  last := by
    intro other hother
    cases hother
    rw [hnumber]
    exact h.last port hport

theorem Sound.moved {cobs : CobsCrate} {s s' : PortActor} {a : PortAction}
    {shown : List PortSeen} (h : Sound s) (hmoved : PortMoved cobs s a s' shown) : Sound s' := by
  cases hmoved with
  | arrived pkt => exact ⟨h.waits, h.live, h.last⟩
  | opened hwait =>
      refine ⟨(h.finished hwait).1, fun _ _ => ⟨_, rfl, rfl, rfl⟩, ?_⟩
      intro port hport
      cases hport
      rfl
  | refused hwait => exact ⟨(h.finished hwait).1, by simp, h.last⟩
  | slept hwait =>
      obtain ⟨hwaits, hkept⟩ := h.finished hwait
      exact ⟨hwaits, fun hmem hstopping => h.live (hkept rfl hmem) hstopping, h.last⟩
  | @sent port pkt _ _ _ hport _ _ =>
      have hqueued : Sound { s with port := some { port with queue := port.queue ++ [pkt] } } :=
        h.replaced hport rfl rfl
      exact ⟨hqueued.waits, hqueued.live, hqueued.last⟩
  | dropped _ _ _ => exact ⟨h.waits, h.live, h.last⟩
  | encoded hport _ => exact h.replaced hport rfl rfl
  | wrote hport count => exact h.replaced hport rfl rfl
  | writeFailed hport =>
      refine ⟨h.waits, by simp, ?_⟩
      intro other hother
      cases hother
      have hlast := h.last _ hport
      exact hlast
  | read hport _ chunk => exact h.replaced hport rfl rfl
  | ended hport => exact h.replaced hport rfl rfl
  | readFailed => exact ⟨h.waits, h.live, h.last⟩
  | nothing hport _ => exact h.replaced hport rfl rfl
  | downPacket hport _ => exact h.replaced hport rfl rfl
  | skipped hport _ => exact h.replaced hport rfl rfl
  | restarted _ =>
      refine ⟨by simp, by simp, ?_⟩
      intro port hport
      cases hport

end PortActor

/-- Where every packet that has come is: given to one of the ports, in the order
in which they were opened, or still in the mailbox.  A port's writer has written
the frames of its packets, or will if the port lasts. -/
structure Delivered (cobs : CobsCrate) (s : PortActor) (seen : List PortSeen) : Prop where
  sound : s.Sound
  arrived : seen.filterMap PortSeen.upPacket? =
    (List.range s.opened).flatMap (fun n => sentTo n seen) ++ s.mailbox
  kept : ∀ pkt, .dropped pkt ∉ seen
  current : ∀ port, s.port = some port → framesOf cobs (sentTo port.number seen) =
    wroteTo port.number seen ++ (port.unsent ++ framesOf cobs port.queue)
  past : ∀ n, wroteTo n seen <+: framesOf cobs (sentTo n seen)
  future : ∀ n, s.opened ≤ n → sentTo n seen = [] ∧ wroteTo n seen = []

def PortSeen.isAside : PortSeen → Prop
  | .upPacket _ => False
  | .sent _ _ => False
  | .dropped _ => False
  | .wrote _ _ => False
  | _ => True

section Delivered

variable {cobs : CobsCrate} {s s' : PortActor} {seen shown : List PortSeen}

theorem logs_of_isAside (h : ∀ item ∈ shown, item.isAside) (n : Nat) :
    sentTo n shown = [] ∧ wroteTo n shown = [] ∧ shown.filterMap PortSeen.upPacket? = [] ∧
      ∀ pkt, .dropped pkt ∉ shown := by
  have hsent : sentTo n shown = [] := by
    rw [sentTo, List.filterMap_eq_nil_iff]
    intro item hmem
    have haside := h item hmem
    cases item <;> first | rfl | cases haside
  have hwrote : shown.filterMap (PortSeen.wrote? n) = [] := by
    rw [List.filterMap_eq_nil_iff]
    intro item hmem
    have haside := h item hmem
    cases item <;> first | rfl | cases haside
  have harrived : shown.filterMap PortSeen.upPacket? = [] := by
    rw [List.filterMap_eq_nil_iff]
    intro item hmem
    have haside := h item hmem
    cases item <;> first | rfl | cases haside
  refine ⟨hsent, by rw [wroteTo, hwrote]; rfl, harrived, ?_⟩
  intro pkt hmem
  cases h _ hmem

theorem Delivered.aside (h : Delivered cobs s seen) (hsound : s'.Sound)
    (hshown : ∀ item ∈ shown, item.isAside) (hmailbox : s'.mailbox = s.mailbox)
    (hopened : s'.opened = s.opened)
    (hport : ∀ port', s'.port = some port' → ∃ port, s.port = some port ∧
      port'.number = port.number ∧
      port'.unsent ++ framesOf cobs port'.queue = port.unsent ++ framesOf cobs port.queue) :
    Delivered cobs s' (seen ++ shown) := by
  have hlogs := logs_of_isAside hshown
  have hsent (n : Nat) : sentTo n (seen ++ shown) = sentTo n seen := by
    rw [sentTo_append, (hlogs n).1, List.append_nil]
  have hwrote (n : Nat) : wroteTo n (seen ++ shown) = wroteTo n seen := by
    rw [wroteTo_append, (hlogs n).2.1, List.append_nil]
  refine ⟨hsound, ?_, ?_, ?_, ?_, ?_⟩
  · rw [List.filterMap_append, (hlogs 0).2.2.1, List.append_nil, h.arrived, hmailbox, hopened]
    simp only [hsent]
  · intro pkt hmem
    cases List.mem_append.mp hmem with
    | inl hold => exact h.kept pkt hold
    | inr hnew => exact (hlogs 0).2.2.2 pkt hnew
  · intro port' hport'
    obtain ⟨port, hold, hnumber, hsame⟩ := hport port' hport'
    rw [hsent, hwrote, hnumber, hsame]
    exact h.current port hold
  · intro n
    rw [hsent, hwrote]
    exact h.past n
  · intro n hn
    rw [hsent, hwrote]
    exact h.future n (hopened ▸ hn)

theorem Delivered.arrives (h : Delivered cobs s seen) (pkt : Bytes) :
    Delivered cobs { s with mailbox := s.mailbox ++ [pkt] } (seen ++ [.upPacket pkt]) := by
  have hsent (n : Nat) : sentTo n (seen ++ [.upPacket pkt]) = sentTo n seen := by
    rw [sentTo_append]
    exact List.append_nil _
  have hwrote (n : Nat) : wroteTo n (seen ++ [.upPacket pkt]) = wroteTo n seen := by
    rw [wroteTo_append]
    exact List.append_nil _
  refine ⟨⟨h.sound.waits, h.sound.live, h.sound.last⟩, ?_, ?_, ?_, ?_, ?_⟩
  · rw [List.filterMap_append, h.arrived, List.append_assoc]
    simp only [hsent]
    rfl
  · intro other hmem
    exact h.kept other (by simpa using hmem)
  · intro port hport
    rw [hsent, hwrote]
    exact h.current port hport
  · intro n
    rw [hsent, hwrote]
    exact h.past n
  · intro n hn
    rw [hsent, hwrote]
    exact h.future n hn

theorem Delivered.opens (h : Delivered cobs s seen)
    (hsound : s'.Sound) (hmailbox : s'.mailbox = s.mailbox) (hopened : s'.opened = s.opened + 1)
    (hport : s'.port = some ⟨s.opened, [], [], true, [], false⟩) :
    Delivered cobs s' (seen ++ [.opened s.opened]) := by
  have haside : ∀ item ∈ [PortSeen.opened s.opened], item.isAside := by simp [PortSeen.isAside]
  have hlogs := logs_of_isAside haside
  have hsent (n : Nat) : sentTo n (seen ++ [.opened s.opened]) = sentTo n seen := by
    rw [sentTo_append, (hlogs n).1, List.append_nil]
  have hwrote (n : Nat) : wroteTo n (seen ++ [.opened s.opened]) = wroteTo n seen := by
    rw [wroteTo_append, (hlogs n).2.1, List.append_nil]
  have hfresh := h.future s.opened (Nat.le_refl _)
  refine ⟨hsound, ?_, ?_, ?_, ?_, ?_⟩
  · rw [List.filterMap_append, (hlogs 0).2.2.1, List.append_nil, h.arrived, hmailbox, hopened,
      List.range_succ, List.flatMap_append]
    simp only [hsent]
    rw [List.flatMap_singleton, hfresh.1, List.append_nil]
  · intro pkt hmem
    exact h.kept pkt (by simpa using hmem)
  · intro port hport'
    rw [hport] at hport'
    cases hport'
    rw [hsent, hwrote, hfresh.1, hfresh.2]
    rfl
  · intro n
    rw [hsent, hwrote]
    exact h.past n
  · intro n hn
    rw [hsent, hwrote]
    rw [hopened] at hn
    exact h.future n (Nat.le_of_succ_le hn)

theorem sentTo_sent (n port : Nat) (pkt : Bytes) :
    sentTo n [.sent port pkt] = if port = n then [pkt] else [] := by
  by_cases hn : port = n <;> simp [sentTo, PortSeen.sent?, hn]

theorem wroteTo_wrote (n port : Nat) (bytes : Bytes) :
    wroteTo n [.wrote port bytes] = if port = n then bytes else [] := by
  by_cases hn : port = n <;> simp [wroteTo, PortSeen.wrote?, hn]

theorem Delivered.sends (h : Delivered cobs s seen) {port : Port} {pkt : Bytes}
    {mailbox : List Bytes} (hsound : s'.Sound) (hport : s.port = some port)
    (hmail : s.mailbox = pkt :: mailbox) (hmailbox : s'.mailbox = mailbox)
    (hopened : s'.opened = s.opened)
    (hport' : s'.port = some { port with queue := port.queue ++ [pkt] }) :
    Delivered cobs s' (seen ++ [.sent port.number pkt]) := by
  have hlast := h.sound.last port hport
  have hwrote (n : Nat) : wroteTo n (seen ++ [.sent port.number pkt]) = wroteTo n seen := by
    rw [wroteTo_append]
    exact List.append_nil _
  have hother (n : Nat) (hn : port.number ≠ n) :
      sentTo n (seen ++ [.sent port.number pkt]) = sentTo n seen := by
    rw [sentTo_append, sentTo_sent, if_neg hn, List.append_nil]
  have hthis : sentTo port.number (seen ++ [.sent port.number pkt]) =
      sentTo port.number seen ++ [pkt] := by
    rw [sentTo_append, sentTo_sent, if_pos rfl]
  refine ⟨hsound, ?_, ?_, ?_, ?_, ?_⟩
  · have hbefore : (List.range port.number).flatMap
        (fun n => sentTo n (seen ++ [.sent port.number pkt])) =
          (List.range port.number).flatMap fun n => sentTo n seen := by
      apply List.flatMap_congr
      intro n hn
      exact hother n (Nat.ne_of_gt (List.mem_range.mp hn))
    rw [List.filterMap_append, h.arrived, hmail, hmailbox, hopened, ← hlast, List.range_succ,
      List.flatMap_append, List.flatMap_append, hbefore, List.flatMap_singleton,
      List.flatMap_singleton, hthis]
    simp [PortSeen.upPacket?]
  · intro other hmem
    exact h.kept other (by simpa using hmem)
  · intro port' hport''
    rw [hport'] at hport''
    cases hport''
    rw [hthis, hwrote, framesOf_append, framesOf_append, h.current port hport]
    simp only [List.append_assoc]
  · intro n
    rw [hwrote]
    by_cases hn : port.number = n
    · rw [← hn, hthis, framesOf_append]
      exact (h.past _).trans (List.prefix_append _ _)
    · rw [hother n hn]
      exact h.past n
  · intro n hn
    rw [hopened] at hn
    rw [hwrote, hother n (by omega)]
    exact h.future n hn

theorem Delivered.writes (h : Delivered cobs s seen) {port : Port} (hport : s.port = some port)
    (count : Nat) :
    Delivered cobs { s with port := some { port with unsent := port.unsent.drop count } }
      (seen ++ [.wrote port.number (port.unsent.take count)]) := by
  have hlast := h.sound.last port hport
  have hcurrent := h.current port hport
  have hsent (n : Nat) : sentTo n (seen ++ [.wrote port.number (port.unsent.take count)]) =
      sentTo n seen := by
    rw [sentTo_append]
    exact List.append_nil _
  have hother (n : Nat) (hn : port.number ≠ n) :
      wroteTo n (seen ++ [.wrote port.number (port.unsent.take count)]) = wroteTo n seen := by
    rw [wroteTo_append, wroteTo_wrote, if_neg hn, List.append_nil]
  have hthis : wroteTo port.number (seen ++ [.wrote port.number (port.unsent.take count)]) =
      wroteTo port.number seen ++ port.unsent.take count := by
    rw [wroteTo_append, wroteTo_wrote, if_pos rfl]
  refine ⟨h.sound.replaced hport rfl rfl, ?_, ?_, ?_, ?_, ?_⟩
  · rw [List.filterMap_append, h.arrived]
    simp only [hsent]
    exact List.append_nil _
  · intro other hmem
    exact h.kept other (by simpa using hmem)
  · intro port' hport'
    cases hport'
    rw [hsent, hthis, hcurrent, List.append_assoc, ← List.append_assoc (port.unsent.take count),
      List.take_append_drop]
  · intro n
    rw [hsent]
    by_cases hn : port.number = n
    · rw [← hn, hthis, hcurrent]
      refine ⟨port.unsent.drop count ++ framesOf cobs port.queue, ?_⟩
      rw [List.append_assoc, ← List.append_assoc (port.unsent.take count),
        List.take_append_drop]
    · rw [hother n hn]
      exact h.past n
  · intro n hn
    have hopened : s.opened ≤ n := hn
    rw [hsent, hother n (by omega)]
    exact h.future n hopened

theorem Delivered.moved {a : PortAction} (h : Delivered cobs s seen)
    (hmoved : PortMoved cobs s a s' shown) : Delivered cobs s' (seen ++ shown) := by
  have hsound := h.sound.moved hmoved
  cases hmoved with
  | arrived pkt => exact h.arrives pkt
  | opened _ => exact h.opens hsound rfl rfl rfl
  | refused _ => exact h.aside hsound (by simp) rfl rfl fun port hport => ⟨port, hport, rfl, rfl⟩
  | slept _ => exact h.aside hsound (by simp) rfl rfl fun port hport => ⟨port, hport, rfl, rfl⟩
  | sent _ hmail hport _ _ => exact h.sends hsound hport hmail rfl rfl rfl
  | dropped hready _ hgone =>
      obtain ⟨port, hport, htx, hwriting⟩ := h.sound.ready hready
      rw [hgone port hport htx] at hwriting
      cases hwriting
  | encoded hport hqueue =>
      refine h.aside hsound (by simp) rfl rfl ?_
      intro port' hport'
      cases hport'
      refine ⟨_, hport, rfl, ?_⟩
      rw [hqueue, List.append_assoc, ← List.singleton_append (l := _), framesOf_append,
        framesOf_singleton]
  | wrote hport count => exact h.writes hport count
  | writeFailed hport =>
      refine h.aside hsound (by simp) rfl rfl ?_
      intro port' hport'
      cases hport'
      exact ⟨_, hport, rfl, rfl⟩
  | read hport _ chunk =>
      refine h.aside hsound (by simp [PortSeen.isAside]) rfl rfl ?_
      intro port' hport'
      cases hport'
      exact ⟨_, hport, rfl, rfl⟩
  | ended hport =>
      refine h.aside hsound (by simp [PortSeen.isAside]) rfl rfl ?_
      intro port' hport'
      cases hport'
      exact ⟨_, hport, rfl, rfl⟩
  | readFailed =>
      exact h.aside hsound (by simp [PortSeen.isAside]) rfl rfl
        fun port hport => ⟨port, hport, rfl, rfl⟩
  | nothing hport _ =>
      refine h.aside hsound (by simp) rfl rfl ?_
      intro port' hport'
      cases hport'
      exact ⟨_, hport, rfl, rfl⟩
  | downPacket hport _ =>
      refine h.aside hsound (by simp [PortSeen.isAside]) rfl rfl ?_
      intro port' hport'
      cases hport'
      exact ⟨_, hport, rfl, rfl⟩
  | skipped hport _ =>
      refine h.aside hsound (by simp [PortSeen.isAside]) rfl rfl ?_
      intro port' hport'
      cases hport'
      exact ⟨_, hport, rfl, rfl⟩
  | restarted _ =>
      refine h.aside hsound (by simp) rfl rfl ?_
      intro port' hport'
      cases hport'

theorem delivered_of_run
    {visits : List (Visit PortActor PortAction PortSeen)}
    (hrun : (PortActor.machine cobs).Run visits s seen) : Delivered cobs s seen := by
  have hinit : Delivered cobs (PortActor.machine cobs).init [] := by
    refine ⟨PortActor.sound_default, rfl, by simp, ?_, ?_, ?_⟩
    · intro port hport
      cases hport
    · intro n
      exact List.prefix_refl _
    · intro n _
      exact ⟨rfl, rfl⟩
  exact (hrun.always (Delivered cobs) hinit fun hinv hnext =>
    hinv.moved (portMoved_of_next hnext)).1

end Delivered

/-- In every run, over any number of reconnects: no packet that is handled is
dropped, all that have come are with one port each, in order, or still wait, and
what is written on a port is how the frames of its packets begin, all of them
once the writer of the open port has nothing left. -/
theorem packets_reach_ports (cobs : CobsCrate)
    {visits : List (Visit PortActor PortAction PortSeen)} {s : PortActor} {seen : List PortSeen}
    (hrun : (PortActor.machine cobs).Run visits s seen) :
    (∀ pkt, .dropped pkt ∉ seen) ∧
      seen.filterMap PortSeen.upPacket? =
        (List.range s.opened).flatMap (fun n => sentTo n seen) ++ s.mailbox ∧
      (∀ n, wroteTo n seen <+: framesOf cobs (sentTo n seen)) ∧
      ∀ port, s.port = some port → port.queue = [] → port.unsent = [] →
        wroteTo port.number seen = framesOf cobs (sentTo port.number seen) := by
  have h := delivered_of_run hrun
  refine ⟨h.kept, h.arrived, h.past, ?_⟩
  intro port hport hqueue hunsent
  rw [h.current port hport, hqueue, hunsent]
  exact (List.append_nil _).symm

/-- However the bytes written on a port are cut, a framed reader at the other end
gets the first of the packets the port was given and no error, and keeps a part
of the next one; it gets all of them once the writer has nothing left.  None of
the packets may consist of full groups alone. -/
theorem peer_reads_packets {cobs : CobsCrate}
    {visits : List (Visit PortActor PortAction PortSeen)} {s : PortActor} {seen : List PortSeen}
    (hrun : (PortActor.machine cobs).Run visits s seen) {n : Nat}
    (hfits : ∀ pkt ∈ sentTo n seen, ¬ Cobs.FullGroups pkt) {chunks : List Bytes}
    (hchunks : chunks.flatten = wroteTo n seen) :
    ∃ log left taken rest, (CobsCodec.decoder cobs Empty).readChunks [] chunks = .ok (log, left) ∧
      sentTo n seen = taken ++ rest ∧ log.map Prod.fst = taken.map .ok ∧ (0 : UInt8) ∉ left ∧
      ∀ port, s.port = some port → port.number = n → port.queue = [] → port.unsent = [] →
        rest = [] := by
  have h := delivered_of_run hrun
  obtain ⟨more, hmore⟩ := h.past n
  have hcarries : Channel.Carries (CobsCodec.format cobs Empty) ⟨more, chunks.flatten, []⟩
      (sentTo n seen) := by
    refine ⟨hfits, ?_⟩
    rw [List.nil_append, hchunks, hmore]
    rfl
  obtain ⟨log, left, taken, rest, hread, hsplit, hlog, hrest, hzero⟩ :=
    CobsCodec.readChunks_carries hcarries (by simp)
  refine ⟨log, left, taken, rest, hread, hsplit, hlog, hzero, ?_⟩
  rintro port hport rfl hqueue hunsent
  have hall := h.current port hport
  rw [hqueue, hunsent, ← hmore] at hall
  have hnone : more = [] := List.append_cancel_left hall
  exact hrest.eq_nil rfl hnone (CobsCodec.decode_of_zero_not_mem hzero)

def reopened : List PortAction :=
  [.finish 0 true, .upPacket [1, 0], .upPacket [2], .handle, .encode, .write 2, .writeFailed,
    .restart, .finish 1 false, .restart, .finish 1 true, .finish 0 true, .handle, .encode, .write 3]

theorem packets_reach_ports_reopened : ∃ visits s seen,
    (PortActor.machine .reference).Run visits s seen ∧ s.opened = 2 ∧
      wroteTo 0 seen = [2, 1] ∧ wroteTo 1 seen = [2, 2, 0] ∧
      seen.filterMap PortSeen.upPacket? =
        (List.range s.opened).flatMap (fun n => sentTo n seen) ++ s.mailbox := by
  have hrun := Machine.Run.start.follow
    (show (PortActor.machine .reference).follow [] _ [] reopened = some (_, _, _) from rfl)
  exact ⟨_, _, _, hrun, rfl, rfl, rfl, (packets_reach_ports .reference hrun).2.1⟩

theorem peer_reads_packets_reopened : ∃ visits s seen log left taken rest,
    (PortActor.machine .reference).Run visits s seen ∧
      (CobsCodec.decoder .reference Empty).readChunks [] [[2], [2], [0]] = .ok (log, left) ∧
      sentTo 1 seen = taken ++ rest ∧ log.map Prod.fst = taken.map .ok ∧ rest = [] := by
  have hrun := Machine.Run.start.follow
    (show (PortActor.machine .reference).follow [] _ [] reopened = some (_, _, _) from rfl)
  obtain ⟨log, left, taken, rest, hread, hsplit, hlog, _, hidle⟩ :=
    peer_reads_packets hrun
      (show ∀ pkt ∈ sentTo 1 _, ¬ Cobs.FullGroups pkt by decide)
      (show [[2], [2], [0]].flatten = wroteTo 1 _ from rfl)
  exact ⟨_, _, _, log, left, taken, rest, hrun, hread, hsplit, hlog, hidle _ rfl rfl rfl rfl⟩

end AntRelay.Runtime
